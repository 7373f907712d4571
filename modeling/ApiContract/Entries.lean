/-!
# Maps that remember insertion order

Objects, parameter maps and content maps are lists of named values in the order in which the names
first appeared. Writing to a name that is present keeps its place; the order of the names is part of
what callers see.
-/

namespace ApiContract

/-- Named values in insertion order. -/
abbrev Entries (α : Type) := List (String × α)

namespace Entries

variable {α β : Type}

def get? : Entries α → String → Option α
  | [], _ => none
  | (name, value) :: rest, key => if name = key then some value else get? rest key

def contains (entries : Entries α) (key : String) : Bool := (get? entries key).isSome

def keys (entries : Entries α) : List String := List.map Prod.fst entries

def values (entries : Entries α) : List α := List.map Prod.snd entries

/-- Writes a value: in place for a name that is present, else at the end. -/
def insert : Entries α → String → α → Entries α
  | [], key, value => [(key, value)]
  | (name, old) :: rest, key, value =>
    if name = key then (name, value) :: rest else (name, old) :: insert rest key value

/-- Writes a value at the end, unless the name is present. -/
def insertNew (entries : Entries α) (key : String) (value : α) : Entries α :=
  if contains entries key then entries else insert entries key value

/-- The map that pairs written one after the other leave. -/
def ofPairs (pairs : List (String × α)) : Entries α :=
  pairs.foldl (fun entries pair => insert entries pair.1 pair.2) []

def mapValues (f : α → β) (entries : Entries α) : Entries β :=
  List.map (fun entry => (entry.1, f entry.2)) entries

/-- The names are distinct. -/
def Distinct (entries : Entries α) : Prop := (keys entries).Nodup

@[simp] theorem get?_nil (key : String) : get? ([] : Entries α) key = none := rfl

theorem mem_of_get? {entries : Entries α} {key : String} {value : α}
    (h : get? entries key = some value) : (key, value) ∈ entries := by
  induction entries with
  | nil => simp [get?] at h
  | cons entry rest ih =>
    obtain ⟨name, first⟩ := entry
    unfold get? at h
    split at h
    · simp_all
    · exact List.mem_cons_of_mem _ (ih h)

theorem get?_insert_self (entries : Entries α) (key : String) (value : α) :
    get? (insert entries key value) key = some value := by
  induction entries with
  | nil => simp [insert, get?]
  | cons entry rest ih =>
    obtain ⟨name, first⟩ := entry
    unfold insert
    by_cases h : name = key
    · simp [h, get?]
    · simp [h, get?, ih]

theorem get?_insert_of_ne {entries : Entries α} {key other : String} {value : α}
    (hne : other ≠ key) : get? (insert entries key value) other = get? entries other := by
  induction entries with
  | nil => simp [insert, get?, Ne.symm hne]
  | cons entry rest ih =>
    obtain ⟨name, first⟩ := entry
    unfold insert
    by_cases h : name = key
    · subst h
      simp [get?, Ne.symm hne]
    · by_cases ho : name = other
      · subst ho
        simp [get?, hne]
      · simp [h, get?, ho, ih]

end Entries

end ApiContract
