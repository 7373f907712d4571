import ApiContract.Proofs.SchemaMirroring

/-!
# Filling in the components

The components take their positions before any of them is read.  Then they are read in order, each
of them behind what the ones before it left, and filled in at its position.  A `Staging` follows the
table through these stages: what a stage has written behind the components stays to the end, and so
does each component once it is filled in.
-/

namespace ApiContract

/-! ## Steps without a result -/

namespace Compilation

variable {α : Type} {step : α → Compilation Unit} {items : List α} {table final : SchemaTable}

theorem exists_stages_of_forM (hrun : StateT.run (items.forM step) table = .ok ((), final)) :
    ∃ stage : ℕ → SchemaTable, stage 0 = table ∧ stage items.length = final ∧
      ∀ index item, items[index]? = some item →
        StateT.run (step item) (stage index) = .ok ((), stage (index + 1)) := by
  induction items generalizing table with
  | nil =>
      obtain rfl := (Prod.mk.inj (Except.ok.inj hrun)).2
      exact ⟨fun _ => table, rfl, rfl, by simp⟩
  | cons first rest ih =>
      rw [List.forM_eq_forM, List.forM_cons, StateT.run_bind] at hrun
      obtain ⟨⟨⟨⟩, middle⟩, hmiddle, hrun⟩ := ok_of_bind_eq_ok hrun
      obtain ⟨stage, hstart, hend, hstep⟩ := ih hrun
      refine ⟨fun index => Nat.casesOn index table stage, rfl, hend, fun index item hitem => ?_⟩
      cases index with
      | zero =>
          obtain rfl : first = item := by simpa using hitem
          change StateT.run (step first) table = .ok ((), stage 0)
          rw [hstart]
          exact hmiddle
      | succ index => exact hstep index item (by simpa using hitem)

theorem exists_run_forM {fits : SchemaTable → Prop}
    (hstep : ∀ item ∈ items, ∀ table, fits table →
      ∃ after, StateT.run (step item) table = .ok ((), after) ∧ fits after) (hfits : fits table) :
    ∃ final, StateT.run (items.forM step) table = .ok ((), final) ∧ fits final := by
  induction items generalizing table with
  | nil => exact ⟨table, rfl, hfits⟩
  | cons first rest ih =>
      rw [List.forall_mem_cons] at hstep
      obtain ⟨middle, hmiddle, hfits'⟩ := hstep.1 table hfits
      obtain ⟨final, hfinal, hlast⟩ := ih hstep.2 hfits'
      refine ⟨final, ?_, hlast⟩
      rw [List.forM_eq_forM, List.forM_cons, StateT.run_bind, hmiddle]
      exact hfinal

end Compilation

/-! ## Stages of a table -/

namespace SchemaTable

variable {table : SchemaTable} {id : SchemaId} {schema : Schema}

theorem get?_set_of_ne {other : SchemaId} (hne : id ≠ other) :
    (table.set id schema).get? other = table.get? other :=
  Array.getElem?_setIfInBounds_ne hne

end SchemaTable

/-- The table at each stage while `count` components are read behind their positions: `read` is the
schema of each component and `after` the table it leaves. -/
structure Staging (count : ℕ) (stage after : ℕ → SchemaTable) (read : ℕ → Schema) : Prop where
  start : (stage 0).size = count
  reads : ∀ index, index < count → (stage index).Extends (after index)
  fills : ∀ index, index < count → stage (index + 1) = (after index).set index (read index)

namespace Staging

variable {count index later : ℕ} {stage after : ℕ → SchemaTable} {read : ℕ → Schema} {id : ℕ}

theorem size_succ (hstaging : Staging count stage after read) (hindex : index < count) :
    (stage (index + 1)).size = (after index).size := by
  rw [hstaging.fills index hindex, SchemaTable.size_set]

theorem size_le (hstaging : Staging count stage after read) (hle : index ≤ later)
    (hlater : later ≤ count) : (stage index).size ≤ (stage later).size := by
  induction later, hle using Nat.le_induction with
  | base => exact Nat.le_refl _
  | succ later _ ih =>
      rw [hstaging.size_succ hlater]
      exact Nat.le_trans (ih (by omega)) (hstaging.reads later hlater).size

theorem count_le_size (hstaging : Staging count stage after read) (hindex : index ≤ count) :
    count ≤ (stage index).size :=
  hstaging.start ▸ hstaging.size_le (Nat.zero_le index) hindex

theorem after_size_le (hstaging : Staging count stage after read) (hindex : index < count) :
    (after index).size ≤ (stage count).size :=
  hstaging.size_succ hindex ▸ hstaging.size_le hindex (Nat.le_refl count)

/-- What stands behind the components stays as it is. -/
theorem get?_of_count_le (hstaging : Staging count stage after read) (hle : index ≤ later)
    (hlater : later ≤ count) (hcount : count ≤ id) (hid : id < (stage index).size) :
    (stage later).get? id = (stage index).get? id := by
  induction later, hle using Nat.le_induction with
  | base => rfl
  | succ later hle ih =>
      have hid' := Nat.lt_of_lt_of_le hid (hstaging.size_le hle (Nat.le_of_lt hlater))
      have hne : later ≠ id := by omega
      rw [hstaging.fills later hlater, SchemaTable.get?_set_of_ne hne,
        (hstaging.reads later hlater).get? id hid', ih (by omega)]

/-- A component is filled in once. -/
theorem get?_component (hstaging : Staging count stage after read) (hindex : index < count) :
    (stage count).get? index = some (read index) := by
  have hlater : ∀ later, index + 1 ≤ later → later ≤ count →
      (stage later).get? index = some (read index) := by
    intro later hle
    induction later, hle using Nat.le_induction with
    | base =>
        intro _
        have hsize := hstaging.count_le_size (Nat.le_of_lt hindex)
        have hextends := (hstaging.reads index hindex).size
        rw [hstaging.fills index hindex]
        exact SchemaTable.get?_set_self _
          (Nat.lt_of_lt_of_le hindex (Nat.le_trans hsize hextends))
    | succ later hle ih =>
        intro hlater
        have hsize := hstaging.count_le_size (Nat.le_of_lt hlater)
        have hne : later ≠ index := by omega
        rw [hstaging.fills later hlater, SchemaTable.get?_set_of_ne hne,
          (hstaging.reads later hlater).get? index (by omega), ih (by omega)]
  exact hlater count hindex (Nat.le_refl count)

/-- What a component has left behind the components is there at the end. -/
theorem get?_after (hstaging : Staging count stage after read) (hindex : index < count)
    (hcount : count ≤ id) (hid : id < (after index).size) :
    (stage count).get? id = (after index).get? id := by
  have hne : index ≠ id := by omega
  have hid' : id < (stage (index + 1)).size := (hstaging.size_succ hindex).symm ▸ hid
  rw [hstaging.get?_of_count_le hindex (Nat.le_refl count) hcount hid',
    hstaging.fills index hindex, SchemaTable.get?_set_of_ne hne]

/-- Each position behind the components was written by one of them. -/
theorem exists_index (hstaging : Staging count stage after read) (hcount : count ≤ id)
    (hid : id < (stage count).size) :
    ∃ index < count, (stage index).size ≤ id ∧ id < (after index).size := by
  have hbelow : ∀ later ≤ count, id < (stage later).size →
      ∃ index < count, (stage index).size ≤ id ∧ id < (after index).size := by
    intro later
    induction later with
    | zero =>
        intro _ hlt
        have := hstaging.start
        omega
    | succ later ih =>
        intro hlater hlt
        rw [hstaging.size_succ hlater] at hlt
        by_cases hold : id < (stage later).size
        · exact ih (by omega) hold
        · exact ⟨later, hlater, Nat.not_lt.1 hold, hlt⟩
  exact hbelow count (Nat.le_refl count) hid

/-- No two components write to the same position behind the components. -/
theorem index_eq (hstaging : Staging count stage after read) {other : ℕ} (hindex : index < count)
    (hother : other < count) (hle : (stage index).size ≤ id) (hlt : id < (after index).size)
    (hle' : (stage other).size ≤ id) (hlt' : id < (after other).size) : index = other := by
  rw [← hstaging.size_succ hindex] at hlt
  rw [← hstaging.size_succ hother] at hlt'
  rcases Nat.lt_trichotomy index other with hbefore | heq | hbehind
  · have hnext : index + 1 ≤ other := hbefore
    have hsize := hstaging.size_le hnext (Nat.le_of_lt hother)
    omega
  · exact heq
  · have hnext : other + 1 ≤ index := hbehind
    have hsize := hstaging.size_le hnext (Nat.le_of_lt hindex)
    omega

end Staging

namespace Scope

variable {scope : Scope} {final : SchemaTable}

/-- Reads a component and fills in its position. -/
def fillComponent (scope : Scope) (entry : (String × Json) × ℕ) : Compilation Unit := do
  let schema ← scope.readComponent entry.1.2
  modify fun table => table.set entry.2 schema

theorem exists_run_reserve {α : Type} (items : List α) (table : SchemaTable) :
    ∃ reserved, StateT.run (items.forM fun _ => modify fun table => table.reserve.2 :
      Compilation Unit) table = .ok ((), reserved) ∧
        reserved.size = table.size + items.length := by
  induction items generalizing table with
  | nil => exact ⟨table, rfl, rfl⟩
  | cons first rest ih =>
      obtain ⟨reserved, hrun, hsize⟩ := ih table.reserve.2
      refine ⟨reserved, ?_, ?_⟩
      · rw [List.forM_eq_forM, List.forM_cons, StateT.run_bind, ← List.forM_eq_forM]
        exact hrun
      · rw [hsize, SchemaTable.reserve, SchemaTable.size_push, List.length_cons]
        omega

/-- The components are read from a table that holds a position for each of them. -/
theorem exists_run_readComponents (scope : Scope) :
    ∃ reserved : SchemaTable, reserved.size = scope.components.schemas.length ∧
      StateT.run scope.readComponents {} =
        StateT.run (scope.components.schemas.zipIdx.forM scope.fillComponent) reserved := by
  obtain ⟨reserved, hrun, hsize⟩ := exists_run_reserve scope.components.schemas {}
  refine ⟨reserved, by simpa [SchemaTable.size] using hsize, ?_⟩
  unfold readComponents
  rw [StateT.run_bind, hrun]
  rfl

/-- Reading the components goes through stages, if each of them only adds to the table. -/
theorem exists_staging (hrun : StateT.run scope.readComponents {} = .ok ((), final))
    (hreads : ∀ entry ∈ scope.components.schemas, ∀ table schema after,
      scope.components.schemas.length ≤ table.size →
      StateT.run (scope.readComponent entry.2) table = .ok (schema, after) → table.Extends after) :
    ∃ stage after read, Staging scope.components.schemas.length stage after read ∧
      stage scope.components.schemas.length = final ∧
      ∀ index entry, scope.components.schemas[index]? = some entry →
        StateT.run (scope.readComponent entry.2) (stage index) = .ok (read index, after index) := by
  obtain ⟨reserved, hsize, hreserved⟩ := scope.exists_run_readComponents
  rw [hreserved] at hrun
  obtain ⟨stage, hstart, hend, hstep⟩ := Compilation.exists_stages_of_forM hrun
  rw [List.length_zipIdx] at hend
  have hresult : ∀ index, ∃ result : Schema × SchemaTable, ∀ entry,
      scope.components.schemas[index]? = some entry →
      StateT.run (scope.readComponent entry.2) (stage index) = .ok result ∧
        stage (index + 1) = result.2.set index result.1 := by
    intro index
    cases hentry : scope.components.schemas[index]? with
    | none => exact ⟨({}, {}), by simp⟩
    | some entry =>
        have hfill := hstep index (entry, index) (by rw [List.getElem?_zipIdx, hentry]; simp)
        obtain ⟨result, hread, hset⟩ := ok_of_bind_eq_ok hfill
        refine ⟨result, ?_⟩
        rintro _ ⟨⟩
        exact ⟨hread, (Prod.mk.inj (Except.ok.inj hset)).2.symm⟩
  choose result hresult using hresult
  have hextends : ∀ index, index < scope.components.schemas.length →
      scope.components.schemas.length ≤ (stage index).size →
      (stage index).Extends (result index).2 := by
    intro index hindex hle
    have hentry := List.getElem?_eq_getElem hindex
    exact hreads _ (List.getElem_mem hindex) _ _ _ hle (hresult index _ hentry).1
  have hcount : ∀ index, index ≤ scope.components.schemas.length →
      scope.components.schemas.length ≤ (stage index).size := by
    intro index
    induction index with
    | zero => exact fun _ => Nat.le_of_eq (hstart ▸ hsize.symm)
    | succ index ih =>
        intro hindex
        have hle := ih (Nat.le_of_lt hindex)
        have hset := (hresult index _ (List.getElem?_eq_getElem hindex)).2
        rw [hset, SchemaTable.size_set]
        exact Nat.le_trans hle (hextends index hindex hle).size
  refine ⟨stage, fun index => (result index).2, fun index => (result index).1, ⟨?_, ?_, ?_⟩, hend,
    fun index entry hentry => (hresult index entry hentry).1⟩
  · rw [hstart, hsize]
  · exact fun index hindex => hextends index hindex (hcount index (Nat.le_of_lt hindex))
  · exact fun index hindex => (hresult index _ (List.getElem?_eq_getElem hindex)).2

/-- The components can be read if each of them can, and only adds to the table. -/
theorem exists_run_readComponents_eq_ok
    (hreads : ∀ entry ∈ scope.components.schemas, ∀ table : SchemaTable,
      scope.components.schemas.length ≤ table.size → ∃ schema after,
        StateT.run (scope.readComponent entry.2) table = .ok (schema, after) ∧
          table.Extends after) :
    ∃ final, StateT.run scope.readComponents {} = .ok ((), final) := by
  obtain ⟨reserved, hsize, hreserved⟩ := scope.exists_run_readComponents
  have hstep : ∀ item ∈ scope.components.schemas.zipIdx, ∀ table : SchemaTable,
      scope.components.schemas.length ≤ table.size → ∃ after,
        StateT.run (scope.fillComponent item) table = .ok ((), after) ∧
          scope.components.schemas.length ≤ after.size := by
    rintro ⟨entry, index⟩ hitem table hle
    obtain ⟨schema, after, hrun, hextends⟩ :=
      hreads entry (List.fst_mem_of_mem_zipIdx hitem) table hle
    refine ⟨after.set index schema, ?_, ?_⟩
    · unfold fillComponent
      rw [StateT.run_bind, hrun]
      rfl
    · rw [SchemaTable.size_set]
      exact Nat.le_trans hle hextends.size
  obtain ⟨final, hfinal, -⟩ :=
    Compilation.exists_run_forM hstep (Nat.le_of_eq hsize.symm)
  exact ⟨final, hreserved ▸ hfinal⟩

end Scope

end ApiContract
