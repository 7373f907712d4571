import ApiContract.Proofs.Stages

/-!
# Joining what the components leave

The components of two descriptions need not stand in the same order, so they are read in lockstep one
by one: each component beside the one of the same name, at whatever stage the other table is.  Every
component extends the pairing of the components by the positions it leaves.  These pieces are
joined here, and at the end both tables correspond as a whole.
-/

namespace ApiContract

namespace Pairing

variable {P Q : Pairing} {table table' other other' : SchemaTable}

/-- Two tables correspond as a whole: the first one has a twin for each of its positions, twins are
alike, and detours lead to twins. -/
structure Settles (P : Pairing) (table other : SchemaTable) : Prop extends P.Fits table other where
  alike : ∀ first second : Nat, P.twin first second → ∃ schema found,
    table.get? first = some schema ∧ other.get? second = some found ∧ schema.Alike P found
  leads : ∀ first second : Nat, P.detour first second → ∃ target, P.twin first target ∧
    other.get? second = some (.detour target)
  total : ∀ first : Nat, first < table.size → ∃ second, P.twin first second

/-- Tables that correspond as a whole still do when they grow together. -/
theorem Settles.grows (hsettles : P.Settles table other) (hgrows : P.Grows table other Q table' other')
    (hfits : Q.Fits table' other') : Q.Settles table' other' where
  toFits := hfits
  alike := fun first second htwin => by
    rcases hgrows.twin first second htwin with hold | ⟨-, -, schema, found, hget, hget', halike⟩
    · obtain ⟨schema, found, hget, hget', halike⟩ := hsettles.alike first second hold
      exact ⟨schema, found, hgrows.left.get?_eq_some hget, hgrows.right.get?_eq_some hget',
        halike.mono hgrows.below⟩
    · exact ⟨schema, found, hget, hget', halike⟩
  leads := fun first second hdetour => by
    rcases hgrows.detour first second hdetour with hold | ⟨-, target, htwin, hget⟩
    · obtain ⟨target, htwin, hget⟩ := hsettles.leads first second hold
      exact ⟨target, hgrows.below.twin _ _ htwin, hgrows.right.get?_eq_some hget⟩
    · exact ⟨target, htwin, hget⟩
  total := fun first hlt => by
    by_cases hold : first < table.size
    · obtain ⟨second, htwin⟩ := hsettles.total first hold
      exact ⟨second, hgrows.below.twin _ _ htwin⟩
    · exact hgrows.total first (Nat.not_lt.1 hold) hlt

/-- A pairing of components with what each pair of them leaves. -/
def joined (P : Pairing) (piece : SchemaId → SchemaId → Pairing) : Pairing where
  twin := fun first second => P.twin first second ∨
    ∃ index other, P.twin index other ∧ (piece index other).twin first second
  detour := fun first second => P.detour first second ∨
    ∃ index other, P.twin index other ∧ (piece index other).detour first second
  admits := P.admits

end Pairing

/-- Two tables are filled in stages, and the components that stand for each other are read in
lockstep. -/
structure Joint (P : Pairing) (piece : SchemaId → SchemaId → Pairing) (count count' : ℕ)
    (stage after stage' after' : ℕ → SchemaTable) (read read' : ℕ → Schema) : Prop where
  left : Staging count stage after read
  right : Staging count' stage' after' read'
  component : ∀ index other : Nat, P.twin index other → index < count ∧ other < count'
  forward : ∀ index other : Nat, P.detour index other → other < count' ∧ ∃ target,
    P.twin index target ∧ read' other = .detour target
  unique : ∀ index other index' other' : Nat, P.twin index other → P.twin index' other' →
    (index = index' ↔ other = other')
  apart : ∀ index other index' : Nat, P.twin index other → ¬ P.detour index' other
  total : ∀ index : Nat, index < count → ∃ other, P.twin index other
  grows : ∀ index other : Nat, P.twin index other →
    P.Grows (stage index) (stage' other) (piece index other) (after index) (after' other)
  fits : ∀ index other : Nat, P.twin index other →
    (piece index other).Fits (after index) (after' other)
  alike : ∀ index other : Nat, P.twin index other →
    (read index).Alike (piece index other) (read' other)

namespace Joint

variable {P : Pairing} {piece : SchemaId → SchemaId → Pairing} {count count' : ℕ}
  {stage after stage' after' : ℕ → SchemaTable} {read read' : ℕ → Schema}
  {first second index other : ℕ}

theorem below (P : Pairing) (piece : SchemaId → SchemaId → Pairing) : P.Below (P.joined piece) :=
  ⟨fun _ _ htwin => .inl htwin, fun _ _ hdetour => .inl hdetour, fun _ _ => Iff.rfl⟩

variable (hjoint : Joint P piece count count' stage after stage' after' read read')

include hjoint

theorem piece_below (htwin : P.twin index other) : (piece index other).Below (P.joined piece) where
  twin := fun _ _ hpiece => .inr ⟨index, other, htwin, hpiece⟩
  detour := fun _ _ hpiece => .inr ⟨index, other, htwin, hpiece⟩
  admits := fun filled first => ((hjoint.grows index other htwin).below.admits filled first).symm

/-- The positions are what a pair of components left behind all components, and the schemas there
are alike. -/
structure Leaves (P : Pairing) (piece : SchemaId → SchemaId → Pairing) (count count' : ℕ)
    (stage after stage' after' : ℕ → SchemaTable) (index other first second : ℕ) : Prop where
  twins : P.twin index other
  twin : (piece index other).twin first second
  left : (stage index).size ≤ first ∧ first < (after index).size
  right : (stage' other).size ≤ second ∧ second < (after' other).size
  behind : count ≤ first ∧ count' ≤ second
  alike : ∃ schema found, (after index).get? first = some schema ∧
    (after' other).get? second = some found ∧ schema.Alike (piece index other) found

/-- Twins are components, or a pair of components left them. -/
theorem twin_cases (htwin : (P.joined piece).twin first second) : P.twin first second ∨
    ∃ index other, Leaves P piece count count' stage after stage' after' index other first
      second := by
  rcases htwin with hold | ⟨index, other, htwins, htwin⟩
  · exact .inl hold
  · rcases (hjoint.grows index other htwins).twin first second htwin with
      hold | ⟨hle, hle', halike⟩
    · exact .inl hold
    · obtain ⟨hindex, hother⟩ := hjoint.component index other htwins
      have hlt := (hjoint.fits index other htwins).twin first second htwin
      have hcount := hjoint.left.count_le_size (Nat.le_of_lt hindex)
      have hcount' := hjoint.right.count_le_size (Nat.le_of_lt hother)
      exact .inr ⟨index, other, htwins, htwin, ⟨hle, hlt.1⟩, ⟨hle', hlt.2⟩,
        ⟨Nat.le_trans hcount hle, Nat.le_trans hcount' hle'⟩, halike⟩

/-- Detours are components, or a pair of components left them. -/
theorem detour_cases (hdetour : (P.joined piece).detour first second) : P.detour first second ∨
    ∃ index other, P.twin index other ∧ (stage' other).size ≤ second ∧
      second < (after' other).size ∧ (piece index other).detour first second ∧ ∃ target,
        (piece index other).twin first target ∧
          (after' other).get? second = some (.detour target) := by
  rcases hdetour with hold | ⟨index, other, htwins, hdetour⟩
  · exact .inl hold
  · rcases (hjoint.grows index other htwins).detour first second hdetour with hold | ⟨hle, hleads⟩
    · exact .inl hold
    · exact .inr ⟨index, other, htwins, hle,
        (hjoint.fits index other htwins).detour first second hdetour, hdetour, hleads⟩

theorem unique_of_leaves {index' other' first' second' : ℕ}
    (hleaves : Leaves P piece count count' stage after stage' after' index other first second)
    (hleaves' : Leaves P piece count count' stage after stage' after' index' other' first'
      second') : first = first' ↔ second = second' := by
  obtain ⟨hindex, hother⟩ := hjoint.component index other hleaves.twins
  obtain ⟨hindex', hother'⟩ := hjoint.component index' other' hleaves'.twins
  have hcomponents := hjoint.unique _ _ _ _ hleaves.twins hleaves'.twins
  constructor
  · rintro rfl
    obtain rfl := hjoint.left.index_eq hindex hindex' hleaves.left.1 hleaves.left.2
      hleaves'.left.1 hleaves'.left.2
    obtain rfl := hcomponents.1 rfl
    exact ((hjoint.fits _ _ hleaves.twins).unique _ _ _ _ hleaves.twin hleaves'.twin).1 rfl
  · rintro rfl
    obtain rfl := hjoint.right.index_eq hother hother' hleaves.right.1 hleaves.right.2
      hleaves'.right.1 hleaves'.right.2
    obtain rfl := hcomponents.2 rfl
    exact ((hjoint.fits _ _ hleaves.twins).unique _ _ _ _ hleaves.twin hleaves'.twin).2 rfl

theorem fits_joined : (P.joined piece).Fits (stage count) (stage' count') where
  twin := fun first second htwin => by
    rcases hjoint.twin_cases htwin with hold | ⟨index, other, hleaves⟩
    · have hcomponent := hjoint.component _ _ hold
      have hcount := hjoint.left.count_le_size (Nat.le_refl count)
      have hcount' := hjoint.right.count_le_size (Nat.le_refl count')
      omega
    · obtain ⟨hindex, hother⟩ := hjoint.component _ _ hleaves.twins
      exact ⟨Nat.lt_of_lt_of_le hleaves.left.2 (hjoint.left.after_size_le hindex),
        Nat.lt_of_lt_of_le hleaves.right.2 (hjoint.right.after_size_le hother)⟩
  detour := fun first second hdetour => by
    rcases hjoint.detour_cases hdetour with hold | ⟨index, other, htwins, -, hlt, -⟩
    · have hcomponent := (hjoint.forward _ _ hold).1
      have hcount' := hjoint.right.count_le_size (Nat.le_refl count')
      omega
    · have hother := (hjoint.component _ _ htwins).2
      exact Nat.lt_of_lt_of_le hlt (hjoint.right.after_size_le hother)
  unique := fun first second first' second' htwin htwin' => by
    rcases hjoint.twin_cases htwin with hold | ⟨index, other, hleaves⟩ <;>
      rcases hjoint.twin_cases htwin' with hold' | ⟨index', other', hleaves'⟩
    · exact hjoint.unique _ _ _ _ hold hold'
    · have := hjoint.component _ _ hold
      have := hleaves'.behind
      omega
    · have := hjoint.component _ _ hold'
      have := hleaves.behind
      omega
    · exact hjoint.unique_of_leaves hleaves hleaves'
  apart := fun first second first' htwin hdetour => by
    rcases hjoint.twin_cases htwin with hold | ⟨index, other, hleaves⟩ <;>
      rcases hjoint.detour_cases hdetour with
        hold' | ⟨index', other', htwins', hle', hlt', hdetour', -⟩
    · exact hjoint.apart _ _ _ hold hold'
    · have hother' := (hjoint.component _ _ htwins').2
      have hcount' := hjoint.right.count_le_size (Nat.le_of_lt hother')
      have hcomponent := (hjoint.component _ _ hold).2
      omega
    · have hcomponent := (hjoint.forward _ _ hold').1
      have hbehind := hleaves.behind.2
      omega
    · have hother := (hjoint.component _ _ hleaves.twins).2
      have hother' := (hjoint.component _ _ htwins').2
      obtain rfl := hjoint.right.index_eq hother hother' hleaves.right.1 hleaves.right.2 hle' hlt'
      obtain rfl := (hjoint.unique _ _ _ _ hleaves.twins htwins').2 rfl
      exact (hjoint.fits _ _ htwins').apart _ _ _ hleaves.twin hdetour'

/-- Both tables correspond as a whole when all components are filled in. -/
theorem settles : (P.joined piece).Settles (stage count) (stage' count') where
  toFits := hjoint.fits_joined
  alike := fun first second htwin => by
    rcases hjoint.twin_cases htwin with hold | ⟨index, other, hleaves⟩
    · obtain ⟨hfirst, hsecond⟩ := hjoint.component _ _ hold
      exact ⟨_, _, hjoint.left.get?_component hfirst, hjoint.right.get?_component hsecond,
        (hjoint.alike _ _ hold).mono (hjoint.piece_below hold)⟩
    · obtain ⟨hindex, hother⟩ := hjoint.component _ _ hleaves.twins
      obtain ⟨schema, found, hget, hget', halike⟩ := hleaves.alike
      refine ⟨schema, found, ?_, ?_, halike.mono (hjoint.piece_below hleaves.twins)⟩
      · rw [hjoint.left.get?_after hindex hleaves.behind.1 hleaves.left.2, hget]
      · rw [hjoint.right.get?_after hother hleaves.behind.2 hleaves.right.2, hget']
  leads := fun first second hdetour => by
    rcases hjoint.detour_cases hdetour with
      hold | ⟨index, other, htwins, hle, hlt, -, target, htwin, hget⟩
    · obtain ⟨hsecond, target, htwin, hread⟩ := hjoint.forward _ _ hold
      exact ⟨target, .inl htwin, hread ▸ hjoint.right.get?_component hsecond⟩
    · have hother := (hjoint.component _ _ htwins).2
      have hcount' := hjoint.right.count_le_size (Nat.le_of_lt hother)
      refine ⟨target, .inr ⟨index, other, htwins, htwin⟩, ?_⟩
      rw [hjoint.right.get?_after hother (Nat.le_trans hcount' hle) hlt, hget]
  total := fun first hfirst => by
    by_cases hcomponent : first < count
    · obtain ⟨second, htwin⟩ := hjoint.total first hcomponent
      exact ⟨second, .inl htwin⟩
    · obtain ⟨index, hindex, hle, hlt⟩ :=
        hjoint.left.exists_index (Nat.not_lt.1 hcomponent) hfirst
      obtain ⟨other, htwins⟩ := hjoint.total index hindex
      obtain ⟨second, htwin⟩ := (hjoint.grows _ _ htwins).total first hle hlt
      exact ⟨second, .inr ⟨index, other, htwins, htwin⟩⟩

end Joint

end ApiContract
