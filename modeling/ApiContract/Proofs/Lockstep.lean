import ApiContract.Proofs.Pairing
import ApiContract.Proofs.Reading

/-!
# Reading two descriptions in lockstep

Two descriptions that say the same are read step by step into two tables.  `Mirrors` says of two
parts that whenever the first one can be read the second one can be read too, and that what both
add to their tables extends the pairing of the positions.  There is one rule for each way of
putting parts together.
-/

namespace ApiContract

namespace Pairing

variable {P Q R : Pairing} {table table' table'' other other' other'' : SchemaTable}

/-- The pairing is one-to-one and speaks of positions of the two tables only. -/
structure Fits (P : Pairing) (table other : SchemaTable) : Prop where
  twin : ∀ first second : Nat, P.twin first second → first < table.size ∧ second < other.size
  detour : ∀ first second : Nat, P.detour first second → second < other.size
  unique : ∀ first second first' second' : Nat, P.twin first second → P.twin first' second' →
    (first = first' ↔ second = second')
  apart : ∀ first second first', P.twin first second → ¬ P.detour first' second

/-- Both tables have grown, and the pairing with them: new twins are new positions with schemas that
are alike, new detours are new positions that lead to a twin, and each new position of the first
table has a twin. -/
structure Grows (P : Pairing) (table other : SchemaTable) (Q : Pairing)
    (table' other' : SchemaTable) : Prop where
  below : P.Below Q
  left : table.Extends table'
  right : other.Extends other'
  twin : ∀ first second : Nat, Q.twin first second → P.twin first second ∨
    table.size ≤ first ∧ other.size ≤ second ∧ ∃ schema found, table'.get? first = some schema ∧
      other'.get? second = some found ∧ schema.Alike Q found
  detour : ∀ first second : Nat, Q.detour first second → P.detour first second ∨
    other.size ≤ second ∧ ∃ target, Q.twin first target ∧
      other'.get? second = some (.detour target)
  total : ∀ first : Nat, table.size ≤ first → first < table'.size → ∃ second, Q.twin first second

theorem Grows.refl (P : Pairing) (table other : SchemaTable) : P.Grows table other P table other where
  below := .refl P
  left := .refl table
  right := .refl other
  twin := fun _ _ htwin => .inl htwin
  detour := fun _ _ hdetour => .inl hdetour
  total := fun _ hle hlt => absurd hlt (Nat.not_lt.2 hle)

theorem Grows.trans (hfirst : P.Grows table other Q table' other')
    (hnext : Q.Grows table' other' R table'' other'') : P.Grows table other R table'' other'' where
  below := hfirst.below.trans hnext.below
  left := hfirst.left.trans hnext.left
  right := hfirst.right.trans hnext.right
  twin := fun first second htwin => by
    rcases hnext.twin first second htwin with hold | ⟨hle, hle', hnew⟩
    · rcases hfirst.twin first second hold with hold | ⟨hle, hle', schema, found, hget, hget', halike⟩
      · exact .inl hold
      · exact .inr ⟨hle, hle', schema, found, hnext.left.get?_eq_some hget,
          hnext.right.get?_eq_some hget', halike.mono hnext.below⟩
    · exact .inr ⟨Nat.le_trans hfirst.left.size hle, Nat.le_trans hfirst.right.size hle', hnew⟩
  detour := fun first second hdetour => by
    rcases hnext.detour first second hdetour with hold | ⟨hle, hnew⟩
    · rcases hfirst.detour first second hold with hold | ⟨hle, target, htwin, hget⟩
      · exact .inl hold
      · exact .inr ⟨hle, target, hnext.below.twin _ _ htwin, hnext.right.get?_eq_some hget⟩
    · exact .inr ⟨Nat.le_trans hfirst.right.size hle, hnew⟩
  total := fun first hle hlt => by
    by_cases hold : first < table'.size
    · obtain ⟨second, htwin⟩ := hfirst.total first hle hold
      exact ⟨second, hnext.below.twin _ _ htwin⟩
    · exact hnext.total first (Nat.not_lt.1 hold) hlt

/-- The pairing with one more pair of twins. -/
def addTwin (P : Pairing) (first second : SchemaId) : Pairing where
  twin := fun id other => P.twin id other ∨ id = first ∧ other = second
  detour := P.detour
  admits := P.admits

/-- The pairing with one more detour. -/
def addDetour (P : Pairing) (first second : SchemaId) : Pairing where
  twin := P.twin
  detour := fun id other => P.detour id other ∨ id = first ∧ other = second
  admits := P.admits

theorem below_addTwin (P : Pairing) (first second : SchemaId) : P.Below (P.addTwin first second) :=
  ⟨fun _ _ htwin => .inl htwin, fun _ _ hdetour => hdetour, fun _ _ => Iff.rfl⟩

theorem below_addDetour (P : Pairing) (first second : SchemaId) :
    P.Below (P.addDetour first second) :=
  ⟨fun _ _ htwin => htwin, fun _ _ hdetour => .inl hdetour, fun _ _ => Iff.rfl⟩

theorem grows_addTwin {schema found : Schema} (halike : schema.Alike P found) :
    P.Grows table other (P.addTwin table.size other.size) (table.push schema).2
      (other.push found).2 where
  below := below_addTwin _ _ _
  left := SchemaTable.extends_push _ _
  right := SchemaTable.extends_push _ _
  twin := by
    rintro first second (hold | ⟨rfl, rfl⟩)
    · exact .inl hold
    · exact .inr ⟨Nat.le_refl _, Nat.le_refl _, schema, found, SchemaTable.get?_push_self _ _,
        SchemaTable.get?_push_self _ _, halike.mono (below_addTwin _ _ _)⟩
  detour := fun _ _ hdetour => .inl hdetour
  total := fun first hle hlt => by
    rw [SchemaTable.size_push] at hlt
    obtain rfl : first = table.size := by omega
    exact ⟨_, .inr ⟨rfl, rfl⟩⟩

theorem fits_addTwin (hfits : P.Fits table other) (schema found : Schema) :
    (P.addTwin table.size other.size).Fits (table.push schema).2 (other.push found).2 where
  twin := by
    rw [SchemaTable.size_push, SchemaTable.size_push]
    rintro first second (hold | ⟨rfl, rfl⟩)
    · have := hfits.twin first second hold
      omega
    · omega
  detour := fun first second hdetour => by
    rw [SchemaTable.size_push]
    have := hfits.detour first second hdetour
    omega
  unique := by
    rintro first second first' second' (hold | ⟨rfl, rfl⟩) (hold' | ⟨rfl, rfl⟩)
    · exact hfits.unique _ _ _ _ hold hold'
    · have := hfits.twin first second hold
      omega
    · have := hfits.twin first' second' hold'
      omega
    · simp
  apart := by
    rintro first second first' (hold | ⟨rfl, rfl⟩) hdetour
    · exact hfits.apart _ _ _ hold hdetour
    · have := hfits.detour _ _ hdetour
      omega

theorem grows_addDetour {first target : SchemaId} (htwin : P.twin first target) :
    P.Grows table other (P.addDetour first other.size) table
      (other.push (.detour target)).2 where
  below := below_addDetour _ _ _
  left := .refl _
  right := SchemaTable.extends_push _ _
  twin := fun _ _ htwin => .inl htwin
  detour := by
    rintro id second (hold | ⟨rfl, rfl⟩)
    · exact .inl hold
    · exact .inr ⟨Nat.le_refl _, target, htwin, SchemaTable.get?_push_self _ _⟩
  total := fun _ hle hlt => absurd hlt (Nat.not_lt.2 hle)

theorem fits_addDetour (hfits : P.Fits table other) (first : SchemaId) (schema : Schema) :
    (P.addDetour first other.size).Fits table (other.push schema).2 where
  twin := fun id second htwin => by
    rw [SchemaTable.size_push]
    have := hfits.twin id second htwin
    omega
  detour := by
    rw [SchemaTable.size_push]
    rintro id second (hold | ⟨rfl, rfl⟩)
    · have := hfits.detour id second hold
      omega
    · omega
  unique := hfits.unique
  apart := by
    rintro id second first' htwin (hold | ⟨rfl, rfl⟩)
    · exact hfits.apart _ _ _ htwin hold
    · have := hfits.twin _ _ htwin
      omega

/-- A relation that still holds when a pairing grows. -/
def Stable {α β : Type} (related : Pairing → α → β → Prop) : Prop :=
  ∀ P Q value other, P.Below Q → related P value other → related Q value other

theorem stable_const {α β : Type} (related : α → β → Prop) : Stable fun _ => related :=
  fun _ _ _ _ _ hrelated => hrelated

theorem stable_twin : Stable twin := fun _ _ first second hbelow => hbelow.twin first second

theorem stable_seats (filled : Prop) : Stable fun P => P.Seats filled :=
  fun _ _ _ _ hbelow => hbelow.seats

theorem Stable.rel {α β : Type} {related : Pairing → α → β → Prop} (hstable : Stable related) :
    Stable fun P => Option.Rel (related P) :=
  fun P Q _ _ hbelow hrel => rel_imp hrel fun value other => hstable P Q value other hbelow

theorem Stable.forall₂ {α β : Type} {related : Pairing → α → β → Prop} (hstable : Stable related) :
    Stable fun P => List.Forall₂ (related P) :=
  fun P Q _ _ hbelow hall => hall.imp fun value other => hstable P Q value other hbelow

theorem Stable.paired {α β : Type} {related : String → Pairing → α → β → Prop}
    (hstable : ∀ name, Stable (related name)) :
    Stable fun P => Entries.Paired fun name => related name P :=
  fun P Q _ _ hbelow hpaired =>
    hpaired.imp fun name value other => hstable name P Q value other hbelow

end Pairing

/-- Whenever the first part can be read at a table the second can be read at a table that fits, with
a related result. -/
def Mirrors {α β : Type} (P : Pairing) (part : Compilation α) (other : Compilation β)
    (related : Pairing → α → β → Prop) : Prop :=
  ∀ table table', P.Fits table table' → ∀ value after, StateT.run part table = .ok (value, after) →
    ∃ value' after' Q, StateT.run other table' = .ok (value', after') ∧
      P.Grows table table' Q after after' ∧ Q.Fits after after' ∧ related Q value value'

namespace Mirrors

variable {α β γ δ : Type} {P : Pairing} {related : Pairing → α → β → Prop}
  {after : Pairing → γ → δ → Prop}

theorem pure {value : α} {other : β} (hrelated : related P value other) :
    Mirrors P (Pure.pure value) (Pure.pure other) related := by
  rintro table table' hfits _ _ ⟨⟩
  exact ⟨other, table', P, rfl, .refl P table table', hfits, hrelated⟩

theorem bind {first : Compilation α} {second : Compilation β} {next : α → Compilation γ}
    {next' : β → Compilation δ} (hfirst : Mirrors P first second related)
    (hnext : ∀ Q value other, P.Below Q → related Q value other →
      Mirrors Q (next value) (next' other) after) :
    Mirrors P (first >>= next) (second >>= next') after := by
  intro table table' hfits result final hrun
  rw [StateT.run_bind] at hrun
  obtain ⟨⟨value, middle⟩, hmiddle, hrun⟩ := ok_of_bind_eq_ok hrun
  obtain ⟨value', middle', Q, hmiddle', hgrows, hfitsQ, hrelated⟩ :=
    hfirst table table' hfits value middle hmiddle
  obtain ⟨result', final', R, hfinal, hgrowsR, hfitsR, hafter⟩ :=
    hnext Q value value' hgrows.below hrelated middle middle' hfitsQ result final hrun
  refine ⟨result', final', R, ?_, hgrows.trans hgrowsR, hfitsR, hafter⟩
  rw [StateT.run_bind, hmiddle']
  exact hfinal

theorem imp {first : Compilation α} {second : Compilation β}
    {implied : Pairing → α → β → Prop} (hfirst : Mirrors P first second related)
    (himp : ∀ Q value other, P.Below Q → related Q value other → implied Q value other) :
    Mirrors P first second implied := by
  intro table table' hfits value final hrun
  obtain ⟨value', final', Q, hrun', hgrows, hfitsQ, hrelated⟩ :=
    hfirst table table' hfits value final hrun
  exact ⟨value', final', Q, hrun', hgrows, hfitsQ, himp Q value value' hgrows.below hrelated⟩

theorem map {first : Compilation α} {second : Compilation β} {f : α → γ} {g : β → δ}
    (hfirst : Mirrors P first second related)
    (hmap : ∀ Q value other, P.Below Q → related Q value other → after Q (f value) (g other)) :
    Mirrors P (f <$> first) (g <$> second) after := by
  rw [← bind_pure_comp, ← bind_pure_comp]
  exact hfirst.bind fun Q value other hbelow hrelated => .pure (hmap Q value other hbelow hrelated)

theorem of_except {value : Except ContractFault α} {other : Except ContractFault β}
    (hvalue : ∀ found, value = .ok found → ∃ found', other = .ok found' ∧ related P found found') :
    Mirrors P (liftM value : Compilation α) (liftM other : Compilation β) related := by
  intro table table' hfits found final hrun
  cases value with
  | error fault => cases hrun
  | ok result =>
      cases hrun
      obtain ⟨found', rfl, hrelated⟩ := hvalue found rfl
      exact ⟨found', table', P, rfl, .refl P _ table', hfits, hrelated⟩

/-- The same is read from both descriptions, without their tables. -/
theorem of_same (value : Except ContractFault α) :
    Mirrors P (liftM value : Compilation α) (liftM value : Compilation α) fun _ => Eq :=
  of_except fun found hfound => ⟨found, hfound, rfl⟩

theorem fail (cause : DocumentFault) (other : Compilation β) :
    Mirrors P (Compilation.fail cause) other related := by
  rintro table table' _ _ _ ⟨⟩

theorem push {schema found : Schema} (halike : schema.Alike P found) :
    Mirrors P (Compilation.push schema) (Compilation.push found) Pairing.twin := by
  rintro table table' hfits _ _ ⟨⟩
  exact ⟨_, _, P.addTwin table.size table'.size, rfl, Pairing.grows_addTwin halike,
    Pairing.fits_addTwin hfits schema found, .inr ⟨rfl, rfl⟩⟩

theorem push_detour {first target : SchemaId} (htwin : P.twin first target) :
    Mirrors P (Pure.pure first) (Compilation.push (.detour target)) fun Q value found =>
      value = first ∧ Q.detour value found := by
  rintro table table' hfits _ _ ⟨⟩
  exact ⟨_, _, P.addDetour _ table'.size, rfl, Pairing.grows_addDetour htwin,
    Pairing.fits_addDetour hfits _ _, rfl, .inr ⟨rfl, rfl⟩⟩

/-- Parts that are read one after the other give related results one by one. -/
theorem mapM {first : γ → Compilation α} {second : δ → Compilation β} {parts : List γ}
    {others : List δ} {paired : γ → δ → Prop} (hstable : Pairing.Stable related)
    (hall : List.Forall₂ paired parts others)
    (hpart : ∀ Q part other, P.Below Q → paired part other →
      Mirrors Q (first part) (second other) related) :
    Mirrors P (parts.mapM first) (others.mapM second) fun Q => List.Forall₂ (related Q) := by
  induction hall generalizing P with
  | nil => exact .pure .nil
  | cons hfirst _ ih =>
      rw [List.mapM_cons, List.mapM_cons]
      refine (hpart P _ _ (.refl P) hfirst).bind fun Q value other hbelow hrelated => ?_
      have hrest := ih fun R part other hbelow' => hpart R part other (hbelow.trans hbelow')
      refine hrest.bind fun R values others' hbelow' hvalues => .pure ?_
      exact .cons (hstable Q R value other hbelow' hrelated) hvalues

/-- Parts that are read name by name give related results name by name. -/
theorem mapM_paired {first : String × γ → Compilation (String × α)}
    {second : String × δ → Compilation (String × β)} {parts : Entries γ} {others : Entries δ}
    {related : String → Pairing → α → β → Prop} {paired : String → γ → δ → Prop}
    (hstable : ∀ name, Pairing.Stable (related name)) (hall : Entries.Paired paired parts others)
    (hpart : ∀ Q name part other, P.Below Q → paired name part other →
      Mirrors Q (first (name, part)) (second (name, other)) fun R result result' =>
        result'.1 = result.1 ∧ related result.1 R result.2 result'.2) :
    Mirrors P (parts.mapM first) (others.mapM second) fun Q =>
      Entries.Paired fun name => related name Q := by
  refine mapM ?_ hall ?_
  · exact fun P Q value other hbelow hpair =>
      ⟨hpair.1, hstable value.1 P Q value.2 other.2 hbelow hpair.2⟩
  · rintro Q ⟨name, part⟩ ⟨_, other⟩ hbelow ⟨rfl, hpaired⟩
    exact hpart Q _ part other hbelow hpaired

end Mirrors

end ApiContract
