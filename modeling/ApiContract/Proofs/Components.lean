import ApiContract.Proofs.Joining
import ApiContract.Proofs.Splitting

/-!
# Components that say the same

The components of two descriptions say the same if each component of the first is written in some
way under its name in the second, in whatever order, and all other components of the second are
nothing but references to components of the first.  Then reading the components of the first
description succeeds only if it does for the second, and both tables correspond as a whole.
-/

namespace ApiContract
namespace Scope

variable {ρ : Rerouting} {scope other : Scope} {name reference : String} {json : Json}
  {id : SchemaId}

/-! ## Names and positions -/

theorem schemaId?_eq_some_iff (hdistinct : Entries.Distinct scope.components.schemas) :
    scope.schemaId? name = some id ↔
      ∃ json, scope.components.schemas[id]? = some (name, json) := by
  unfold schemaId?
  rw [List.idxOf?_eq_some_iff]
  constructor
  · rintro ⟨hid, hname, -⟩
    have hid' : id < scope.components.schemas.length := by simpa [Entries.keys] using hid
    refine ⟨(scope.components.schemas[id]).2, ?_⟩
    rw [List.getElem?_eq_getElem hid', ← hname]
    simp [Entries.keys]
  · rintro ⟨json, hget⟩
    obtain ⟨hid, hentry⟩ := List.getElem?_eq_some_iff.1 hget
    have hid' : id < (Entries.keys scope.components.schemas).length := by
      simpa [Entries.keys] using hid
    have hname : (Entries.keys scope.components.schemas)[id] = name := by
      simp [Entries.keys, hentry]
    refine ⟨hid', hname, fun earlier hearlier heq => ?_⟩
    have hsame := (List.Nodup.getElem_inj_iff hdistinct).1 (heq.trans hname.symm)
    exact absurd hsame (Nat.ne_of_lt hearlier)

theorem exists_schemaId? (hget : Entries.get? scope.components.schemas name = some json) :
    ∃ id, scope.schemaId? name = some id := by
  have hmem : name ∈ Entries.keys scope.components.schemas :=
    Entries.mem_keys_iff.2 ⟨json, Entries.mem_of_get? hget⟩
  rw [← Option.isSome_iff_exists, ← Option.ne_none_iff_isSome]
  exact fun hnone => List.idxOf?_eq_none_iff.1 hnone hmem

theorem schemaOf_eq_ok_iff : scope.schemaOf reference = .ok id ↔
    ∃ name, Reference.nameIn? scope.self? "schemas" reference = some name ∧
      scope.schemaId? name = some id := by
  unfold schemaOf
  rw [← Option.bind_eq_some_iff]
  cases (Reference.nameIn? scope.self? "schemas" reference).bind scope.schemaId? <;> simp

/-- The name that a reference has stands behind a number sign, so the reference is no plain name. -/
theorem mem_of_nameIn?_eq_some {self? : Option String} {part : String}
    (hname : Reference.nameIn? self? part reference = some name) : '#' ∈ reference.toList := by
  by_contra hmem
  have hsplit := Text.splitFirst?_eq_none_iff.2 hmem
  simp [Reference.nameIn?, Reference.component?, hsplit] at hname

/-! ## The pairing of the components -/

/-- The second scope has the components of the first one, each written in some way, and others that
are nothing but references to them. -/
structure Respelled (ρ : Rerouting) (scope other : Scope) : Prop where
  self : other.self? = scope.self?
  distinct : Entries.Distinct scope.components.schemas
  others_distinct : Entries.Distinct other.components.schemas
  schemas : ∀ name json, Entries.get? scope.components.schemas name = some json →
    ∃ json', Entries.get? other.components.schemas name = some json' ∧
      Json.Respelled ρ none json json'
  others : ∀ name json, Entries.get? other.components.schemas name = some json →
    Entries.get? scope.components.schemas name = none → '#' ∉ name.toList ∧
      ∃ target id, json = Json.reference target ∧ scope.schemaOf target = .ok id
  forwards : ∀ target forward, ρ.forwards target forward →
    ∃ name, Reference.nameIn? scope.self? "schemas" forward = some name ∧
      Entries.get? scope.components.schemas name = none ∧
      Entries.get? other.components.schemas name = some (Json.reference target)

/-- Components of the same name stand for each other. -/
def pairing (ρ : Rerouting) (scope other : Scope) : Pairing where
  twin := fun first second => ∃ name, scope.schemaId? name = some first ∧
    other.schemaId? name = some second
  detour := fun first second => ∃ target forward, ρ.forwards target forward ∧
    scope.schemaOf target = .ok first ∧ other.schemaOf forward = .ok second
  admits := fun filled first => ∃ target, ρ.admits filled target ∧ scope.schemaOf target = .ok first

theorem schemaId?_inj (hdistinct : Entries.Distinct scope.components.schemas) {first second : String}
    (hfirst : scope.schemaId? first = some id) (hsecond : scope.schemaId? second = some id) :
    first = second := by
  obtain ⟨_, hget⟩ := (schemaId?_eq_some_iff hdistinct).1 hfirst
  obtain ⟨_, hget'⟩ := (schemaId?_eq_some_iff hdistinct).1 hsecond
  rw [hget] at hget'
  simp_all

variable (hrespelled : Respelled ρ scope other)

include hrespelled

theorem Respelled.exists_twin (hid : scope.schemaId? name = some id) :
    ∃ second, other.schemaId? name = some second ∧ (pairing ρ scope other).twin id second := by
  obtain ⟨json, hget⟩ := (schemaId?_eq_some_iff hrespelled.distinct).1 hid
  have hmem : (name, json) ∈ scope.components.schemas := List.mem_of_getElem? hget
  obtain ⟨json', hget', -⟩ := hrespelled.schemas name json
    (hrespelled.distinct.get?_eq_some_iff.2 hmem)
  obtain ⟨second, hsecond⟩ := exists_schemaId? hget'
  exact ⟨second, hsecond, name, hid, hsecond⟩

theorem Respelled.covers : (pairing ρ scope other).Covers ρ scope other where
  self := hrespelled.self
  reference := fun reference id hid => by
    obtain ⟨name, hname, hid⟩ := schemaOf_eq_ok_iff.1 hid
    obtain ⟨second, hsecond, htwin⟩ := hrespelled.exists_twin hid
    exact ⟨second, schemaOf_eq_ok_iff.2 ⟨name, hrespelled.self ▸ hname, hsecond⟩, htwin⟩
  target := fun target id hid => by
    cases hname : scope.schemaId? target with
    | some found =>
        obtain ⟨second, hsecond, htwin⟩ := hrespelled.exists_twin hname
        simp only [targetOf, hname, Except.ok.injEq] at hid
        exact ⟨second, by simp only [targetOf, hsecond], hid ▸ htwin⟩
    | none =>
        -- A reference is no name of a component, not even of a new one.
        simp only [targetOf, hname] at hid
        obtain ⟨name, hreference, hid⟩ := schemaOf_eq_ok_iff.1 hid
        have hmark := mem_of_nameIn?_eq_some hreference
        have hnone : other.schemaId? target = none := by
          rw [Option.eq_none_iff_forall_ne_some]
          intro second hsecond
          obtain ⟨json, hget⟩ := (schemaId?_eq_some_iff hrespelled.others_distinct).1 hsecond
          have hjson := hrespelled.others_distinct.get?_eq_some_iff.2 (List.mem_of_getElem? hget)
          have hold : Entries.get? scope.components.schemas target = none :=
            Entries.get?_eq_none_iff.2 (List.idxOf?_eq_none_iff.1 hname)
          exact (hrespelled.others target json hjson hold).1 hmark
        obtain ⟨second, hsecond, htwin⟩ := hrespelled.exists_twin hid
        refine ⟨second, ?_, htwin⟩
        simp only [targetOf, hnone]
        exact schemaOf_eq_ok_iff.2 ⟨name, hrespelled.self ▸ hreference, hsecond⟩
  forwards := fun target forward id hforwards hid => by
    obtain ⟨name, hname, -, hget⟩ := hrespelled.forwards target forward hforwards
    obtain ⟨second, hsecond⟩ := exists_schemaId? hget
    have hfound : other.schemaOf forward = .ok second :=
      schemaOf_eq_ok_iff.2 ⟨name, hrespelled.self ▸ hname, hsecond⟩
    exact ⟨second, hfound, target, forward, hforwards, hid, hfound⟩
  admits := fun filled target id hadmits hid => ⟨target, hadmits, hid⟩

theorem Respelled.lt_of_twin {first second : ℕ} (htwin : (pairing ρ scope other).twin first second) :
    first < scope.components.schemas.length ∧ second < other.components.schemas.length := by
  obtain ⟨name, hfirst, hsecond⟩ := htwin
  obtain ⟨_, hget⟩ := (schemaId?_eq_some_iff hrespelled.distinct).1 hfirst
  obtain ⟨_, hget'⟩ := (schemaId?_eq_some_iff hrespelled.others_distinct).1 hsecond
  exact ⟨(List.getElem?_eq_some_iff.1 hget).1, (List.getElem?_eq_some_iff.1 hget').1⟩

theorem Respelled.lt_of_detour {first second : ℕ}
    (hdetour : (pairing ρ scope other).detour first second) :
    second < other.components.schemas.length := by
  obtain ⟨_, _, -, -, hsecond⟩ := hdetour
  obtain ⟨name, -, hsecond⟩ := schemaOf_eq_ok_iff.1 hsecond
  obtain ⟨_, hget⟩ := (schemaId?_eq_some_iff hrespelled.others_distinct).1 hsecond
  exact (List.getElem?_eq_some_iff.1 hget).1

theorem Respelled.fits {table table' : SchemaTable}
    (hsize : scope.components.schemas.length ≤ table.size)
    (hsize' : other.components.schemas.length ≤ table'.size) :
    (pairing ρ scope other).Fits table table' where
  twin := fun first second htwin => by
    have := hrespelled.lt_of_twin htwin
    omega
  detour := fun first second hdetour => by
    have := hrespelled.lt_of_detour hdetour
    omega
  unique := by
    rintro first second first' second' ⟨name, hfirst, hsecond⟩ ⟨name', hfirst', hsecond'⟩
    constructor
    · rintro rfl
      obtain rfl := schemaId?_inj hrespelled.distinct hfirst hfirst'
      exact Option.some.inj (hsecond.symm.trans hsecond')
    · rintro rfl
      obtain rfl := schemaId?_inj hrespelled.others_distinct hsecond hsecond'
      exact Option.some.inj (hfirst.symm.trans hfirst')
  apart := by
    rintro first second first' ⟨name, hfirst, hsecond⟩ ⟨target, forward, hforwards, -, hforward⟩
    obtain ⟨name', hname', hnew, -⟩ := hrespelled.forwards target forward hforwards
    obtain ⟨found, hfound, hsecond'⟩ := schemaOf_eq_ok_iff.1 hforward
    rw [hrespelled.self, hname'] at hfound
    obtain rfl := Option.some.inj hfound
    obtain rfl := schemaId?_inj hrespelled.others_distinct hsecond hsecond'
    obtain ⟨json, hget⟩ := (schemaId?_eq_some_iff hrespelled.distinct).1 hfirst
    exact Entries.get?_eq_none_iff.1 hnew
      (Entries.mem_keys_iff.2 ⟨json, List.mem_of_getElem? hget⟩)

/-! ## Reading the components -/

/-- A component that is read beside the one of the same name, at any two tables that hold the
positions of the components. -/
theorem Respelled.exists_read {json' : Json} {table table' after : SchemaTable} {schema : Schema}
    (hjson : Json.Respelled ρ none json json')
    (hsize : scope.components.schemas.length ≤ table.size)
    (hsize' : other.components.schemas.length ≤ table'.size)
    (hrun : StateT.run (scope.readComponent json) table = .ok (schema, after)) :
    ∃ schema' after' Q, StateT.run (other.readComponent json') table' = .ok (schema', after') ∧
      (pairing ρ scope other).Grows table table' Q after after' ∧ Q.Fits after after' ∧
      schema.Alike Q schema' :=
  mirrors_readComponent hrespelled.covers hjson table table' (hrespelled.fits hsize hsize') schema
    after hrun

theorem Respelled.exists_respelled {entry : String × Json}
    (hentry : entry ∈ scope.components.schemas) :
    ∃ json', (entry.1, json') ∈ other.components.schemas ∧
      Json.Respelled ρ none entry.2 json' := by
  obtain ⟨json', hget, hjson⟩ :=
    hrespelled.schemas entry.1 entry.2 (hrespelled.distinct.get?_eq_some_iff.2 hentry)
  exact ⟨json', Entries.mem_of_get? hget, hjson⟩

/-- A component of the first description only adds to the table. -/
theorem Respelled.extends_of_read {entry : String × Json}
    (hentry : entry ∈ scope.components.schemas) {table after : SchemaTable} {schema : Schema}
    (hsize : scope.components.schemas.length ≤ table.size)
    (hrun : StateT.run (scope.readComponent entry.2) table = .ok (schema, after)) :
    table.Extends after := by
  obtain ⟨json', -, hjson⟩ := hrespelled.exists_respelled hentry
  have hsize' : other.components.schemas.length ≤
      (⟨Array.replicate other.components.schemas.length {}⟩ : SchemaTable).size := by
    simp [SchemaTable.size]
  obtain ⟨_, _, _, -, hgrows, -⟩ := hrespelled.exists_read hjson hsize hsize' hrun
  exact hgrows.left

/-- Each component of the second description can be read when those of the first can, and only adds
to the table. -/
theorem Respelled.exists_read_other {stage after : ℕ → SchemaTable} {read : ℕ → Schema}
    (hstaging : Staging scope.components.schemas.length stage after read)
    (hread : ∀ index entry, scope.components.schemas[index]? = some entry →
      StateT.run (scope.readComponent entry.2) (stage index) = .ok (read index, after index))
    {entry : String × Json} (hentry : entry ∈ other.components.schemas) {table : SchemaTable}
    (hsize : other.components.schemas.length ≤ table.size) :
    ∃ schema after, StateT.run (other.readComponent entry.2) table = .ok (schema, after) ∧
      table.Extends after := by
  have hget := hrespelled.others_distinct.get?_eq_some_iff.2 hentry
  cases hold : Entries.get? scope.components.schemas entry.1 with
  | some json =>
      obtain ⟨json', hget', hjson⟩ := hrespelled.schemas entry.1 json hold
      obtain rfl : json' = entry.2 := Option.some.inj (hget'.symm.trans hget)
      obtain ⟨index, hindex, hitem⟩ := List.getElem_of_mem (Entries.mem_of_get? hold)
      have hitem' : scope.components.schemas[index]? = some (entry.1, json) :=
        List.getElem?_eq_some_iff.2 ⟨hindex, hitem⟩
      obtain ⟨schema', after', Q, hrun, hgrows, -⟩ := hrespelled.exists_read hjson
        (hstaging.count_le_size (Nat.le_of_lt hindex)) hsize (hread index _ hitem')
      exact ⟨schema', after', hrun, hgrows.right⟩
  | none =>
      obtain ⟨-, target, id, hjson, hid⟩ := hrespelled.others entry.1 entry.2 hget hold
      obtain ⟨second, hsecond, -⟩ := hrespelled.covers.reference target id hid
      refine ⟨.detour second, table, ?_, .refl table⟩
      rw [hjson, readComponent_reference, hsecond]
      rfl

/-- Two components of one name are written in two ways. -/
theorem Respelled.exists_of_twin {first second : ℕ}
    (htwin : (pairing ρ scope other).twin first second) :
    ∃ entry entry', scope.components.schemas[first]? = some entry ∧
      other.components.schemas[second]? = some entry' ∧ Json.Respelled ρ none entry.2 entry'.2 := by
  obtain ⟨name, hfirst, hsecond⟩ := htwin
  obtain ⟨json, hget⟩ := (schemaId?_eq_some_iff hrespelled.distinct).1 hfirst
  obtain ⟨json', hget'⟩ := (schemaId?_eq_some_iff hrespelled.others_distinct).1 hsecond
  obtain ⟨found, hfound, hjson⟩ := hrespelled.schemas name json
    (hrespelled.distinct.get?_eq_some_iff.2 (List.mem_of_getElem? hget))
  have hsame := hrespelled.others_distinct.get?_eq_some_iff.2 (List.mem_of_getElem? hget')
  obtain rfl : found = json' := Option.some.inj (hfound.symm.trans hsame)
  exact ⟨(name, json), (name, found), hget, hget', hjson⟩

/-- A component that forwards is read as a detour to the twin of what it forwards to. -/
theorem Respelled.exists_of_detour {first second : ℕ}
    (hdetour : (pairing ρ scope other).detour first second) :
    ∃ entry target, other.components.schemas[second]? = some entry ∧
      (pairing ρ scope other).twin first target ∧
      other.readComponent entry.2 = pure (.detour target) := by
  obtain ⟨target, forward, hforwards, hfirst, hsecond⟩ := hdetour
  obtain ⟨name, hname, -, hjson⟩ := hrespelled.forwards target forward hforwards
  obtain ⟨found, hfound, hsecond⟩ := schemaOf_eq_ok_iff.1 hsecond
  rw [hrespelled.self, hname] at hfound
  obtain rfl := Option.some.inj hfound
  obtain ⟨json, hget⟩ := (schemaId?_eq_some_iff hrespelled.others_distinct).1 hsecond
  have hsame := hrespelled.others_distinct.get?_eq_some_iff.2 (List.mem_of_getElem? hget)
  obtain rfl : Json.reference target = json := Option.some.inj (hjson.symm.trans hsame)
  obtain ⟨twin, htwin, hpaired⟩ := hrespelled.covers.reference target first hfirst
  refine ⟨_, twin, hget, hpaired, ?_⟩
  rw [readComponent_reference, htwin]
  rfl

/-- When the components of the first description have been read, those of the second can be read
too, and both tables correspond as a whole. -/
theorem Respelled.exists_settles {table : SchemaTable}
    (hrun : StateT.run scope.readComponents {} = .ok ((), table)) :
    ∃ table' P, StateT.run other.readComponents {} = .ok ((), table') ∧
      (pairing ρ scope other).Below P ∧ P.Settles table table' := by
  obtain ⟨stage, after, read, hstaging, rfl, hread⟩ :=
    exists_staging hrun fun entry hentry _ _ _ hsize hrun =>
      hrespelled.extends_of_read hentry hsize hrun
  have hothers := fun (entry : String × Json) (hentry : entry ∈ other.components.schemas)
      (table : SchemaTable) (hsize : other.components.schemas.length ≤ table.size) =>
    hrespelled.exists_read_other hstaging hread hentry hsize
  obtain ⟨table', hrun'⟩ := exists_run_readComponents_eq_ok hothers
  obtain ⟨stage', after', read', hstaging', rfl, hread'⟩ :=
    exists_staging hrun' fun entry hentry table schema after hsize hrun => by
      obtain ⟨_, _, hrun', hextends⟩ := hothers entry hentry table hsize
      rw [hrun] at hrun'
      obtain ⟨-, rfl⟩ := Prod.mk.inj (Except.ok.inj hrun')
      exact hextends
  have hpiece : ∀ index second : ℕ, ∃ Q, (pairing ρ scope other).twin index second →
      (pairing ρ scope other).Grows (stage index) (stage' second) Q (after index) (after' second) ∧
        Q.Fits (after index) (after' second) ∧ (read index).Alike Q (read' second) := by
    intro index second
    by_cases htwin : (pairing ρ scope other).twin index second
    · obtain ⟨entry, entry', hentry, hentry', hjson⟩ := hrespelled.exists_of_twin htwin
      obtain ⟨hindex, hsecond⟩ := hrespelled.lt_of_twin htwin
      obtain ⟨_, _, Q, hrun, hpiece⟩ := hrespelled.exists_read hjson
        (hstaging.count_le_size (Nat.le_of_lt hindex))
        (hstaging'.count_le_size (Nat.le_of_lt hsecond)) (hread index entry hentry)
      rw [hread' second entry' hentry'] at hrun
      obtain ⟨rfl, rfl⟩ := Prod.mk.inj (Except.ok.inj hrun)
      exact ⟨Q, fun _ => hpiece⟩
    · exact ⟨pairing ρ scope other, fun hnot => absurd hnot htwin⟩
  choose piece hpiece using hpiece
  have hjoint : Joint (pairing ρ scope other) piece scope.components.schemas.length
      other.components.schemas.length stage after stage' after' read read' := by
    refine ⟨hstaging, hstaging', fun _ _ => hrespelled.lt_of_twin, ?_, ?_, ?_, ?_,
      fun index second htwin => (hpiece index second htwin).1,
      fun index second htwin => (hpiece index second htwin).2.1,
      fun index second htwin => (hpiece index second htwin).2.2⟩
    · intro index second hdetour
      obtain ⟨entry, target, hentry, htwin, hforward⟩ := hrespelled.exists_of_detour hdetour
      have hrun := hread' second entry hentry
      rw [hforward] at hrun
      exact ⟨hrespelled.lt_of_detour hdetour, target, htwin,
        (Prod.mk.inj (Except.ok.inj hrun)).1.symm⟩
    · exact (hrespelled.fits (Nat.le_of_eq hstaging.start.symm)
        (Nat.le_of_eq hstaging'.start.symm)).unique
    · exact (hrespelled.fits (Nat.le_of_eq hstaging.start.symm)
        (Nat.le_of_eq hstaging'.start.symm)).apart
    · intro index hindex
      have hentry := List.getElem?_eq_getElem hindex
      obtain ⟨second, -, htwin⟩ := hrespelled.exists_twin
        ((schemaId?_eq_some_iff hrespelled.distinct).2 ⟨_, hentry⟩)
      exact ⟨second, htwin⟩
  exact ⟨_, _, hrun', Joint.below _ piece, hjoint.settles⟩

end Scope
end ApiContract
