import ApiContract.Json.Reader
import ApiContract.Proofs.Insertion
import ApiContract.Yaml.Reader

/-!
# Objects that name each member once

The members of a JSON object have distinct names.  The readers of both notations write the members
of an object one after the other into a map, so whatever they read is of that form.
-/

namespace ApiContract

namespace Json

/-- No object of the value has two members of one name. -/
inductive Keyed : Json → Prop
  | null : Keyed .null
  | bool (b : Bool) : Keyed (.bool b)
  | integer (i : Int) : Keyed (.integer i)
  | decimal (x : Binary64) : Keyed (.decimal x)
  | string (text : String) : Keyed (.string text)
  | array {items : List Json} (hitems : ∀ item ∈ items, Keyed item) : Keyed (.array items)
  | object {members : Entries Json} (hdistinct : Entries.Distinct members)
      (hmembers : ∀ member ∈ members, Keyed member.2) : Keyed (.object members)

mutual

def isKeyed : Json → Bool
  | .array items => itemsAreKeyed items
  | .object members => decide (Entries.Distinct members) && membersAreKeyed members
  | _ => true

def itemsAreKeyed : List Json → Bool
  | [] => true
  | item :: rest => isKeyed item && itemsAreKeyed rest

def membersAreKeyed : List (String × Json) → Bool
  | [] => true
  | (_, member) :: rest => isKeyed member && membersAreKeyed rest

end

mutual

theorem isKeyed_iff : ∀ json : Json, json.isKeyed ↔ json.Keyed
  | .null => iff_of_true rfl .null
  | .bool b => iff_of_true rfl (.bool b)
  | .integer i => iff_of_true rfl (.integer i)
  | .decimal x => iff_of_true rfl (.decimal x)
  | .string text => iff_of_true rfl (.string text)
  | .array items => by
      rw [isKeyed, itemsAreKeyed_iff items]
      exact ⟨.array, fun | .array hitems => hitems⟩
  | .object members => by
      rw [isKeyed, Bool.and_eq_true, decide_eq_true_iff, membersAreKeyed_iff members]
      exact ⟨fun ⟨hdistinct, hmembers⟩ => .object hdistinct hmembers,
        fun | .object hdistinct hmembers => ⟨hdistinct, hmembers⟩⟩

theorem itemsAreKeyed_iff : ∀ items : List Json,
    itemsAreKeyed items ↔ ∀ item ∈ items, item.Keyed
  | [] => by simp [itemsAreKeyed]
  | item :: rest => by
      rw [itemsAreKeyed, Bool.and_eq_true, isKeyed_iff item, itemsAreKeyed_iff rest,
        List.forall_mem_cons]

theorem membersAreKeyed_iff : ∀ members : List (String × Json),
    membersAreKeyed members ↔ ∀ member ∈ members, member.2.Keyed
  | [] => by simp [membersAreKeyed]
  | (name, member) :: rest => by
      rw [membersAreKeyed, Bool.and_eq_true, isKeyed_iff member, membersAreKeyed_iff rest,
        List.forall_mem_cons]

end

instance : DecidablePred Keyed := fun json => decidable_of_iff _ json.isKeyed_iff

theorem keyed_object_ofPairs {members : List (String × Json)}
    (hmembers : ∀ member ∈ members, Keyed member.2) :
    Keyed (.object (Entries.ofPairs members)) :=
  .object (Entries.distinct_ofPairs members) (Entries.forall_mem_ofPairs hmembers)

/-- What a step leads on to from any intermediate result holds of the last result. -/
theorem forall_mem_bind {α β : Type} {first : Option α} {next : α → Option β} {holds : β → Prop}
    (hnext : ∀ a ∈ first, ∀ b ∈ next a, holds b) : ∀ b ∈ first >>= next, holds b := by
  intro b hmem
  obtain ⟨a, hfirst, hb⟩ := Option.bind_eq_some_iff.1 hmem
  exact hnext a hfirst b hb

theorem forall_mem_map {α β : Type} {first : Option α} {f : α → β} {holds : β → Prop}
    (hfirst : ∀ a ∈ first, holds (f a)) : ∀ b ∈ first.map f, holds b := by
  intro b hmem
  obtain ⟨a, ha, rfl⟩ := Option.mem_map.1 hmem
  exact hfirst a ha

/-! ## Values read from text -/

theorem keyed_of_items? {value : Prefixed Json}
    (hvalue : ∀ text, ∀ result ∈ value text, result.1.Keyed) (fuel : Nat) (text : List Char) :
    ∀ result ∈ items? value fuel text, ∀ item ∈ result.1, item.Keyed := by
  induction fuel generalizing text with
  | zero => simp [items?]
  | succ fuel ih =>
      unfold items?
      refine forall_mem_bind fun first hfirst => ?_
      have hkeyed := hvalue text first hfirst
      dsimp only
      split
      · refine forall_mem_bind fun others hothers => ?_
        rintro _ ⟨⟩ item hmem
        rcases List.mem_cons.1 hmem with rfl | hmem
        · exact hkeyed
        · exact ih _ others hothers item hmem
      · rintro _ ⟨⟩
        simpa using hkeyed
      · simp

theorem keyed_of_members? {value : Prefixed Json}
    (hvalue : ∀ text, ∀ result ∈ value text, result.1.Keyed) (fuel : Nat) (text : List Char) :
    ∀ result ∈ members? value fuel text, ∀ member ∈ result.1, member.2.Keyed := by
  induction fuel generalizing text with
  | zero => simp [members?]
  | succ fuel ih =>
      unfold members?
      split
      · refine forall_mem_bind fun name _ => ?_
        dsimp only
        split
        · refine forall_mem_bind fun behind _ => forall_mem_bind fun first hfirst => ?_
          have hkeyed := hvalue _ first hfirst
          split
          · split
            · refine forall_mem_bind fun others hothers => ?_
              rintro _ ⟨⟩ member hmem
              rcases List.mem_cons.1 hmem with rfl | hmem
              · exact hkeyed
              · exact ih _ others hothers member hmem
            · split
              · rintro _ ⟨⟩
                simpa using hkeyed
              · simp
          · simp
        · simp
      · simp

theorem keyed_of_decimal (x? : Option Binary64) (rest : List Char) :
    ∀ result ∈ x? >>= fun x => pure (Json.decimal x, rest), result.1.Keyed := by
  refine forall_mem_bind fun x _ => ?_
  rintro _ ⟨⟩
  exact .decimal x

theorem keyed_of_fractionAndExponent? (negative : Bool) (significand : Nat) (start : Int)
    (text : List Char) :
    ∀ result ∈ fractionAndExponent? negative significand start text, result.1.Keyed := by
  unfold fractionAndExponent?
  extract_lets behind
  have hbehind : ∀ read, ∀ result ∈ behind read, result.1.Keyed := by
    intro read
    dsimp only [behind]
    split
    · split
      · exact forall_mem_bind fun written _ => keyed_of_decimal _ _
      · exact keyed_of_decimal _ _
    · exact keyed_of_decimal _ _
  split
  · dsimp only
    split
    · exact forall_mem_bind fun read _ => hbehind read
    · exact forall_mem_bind fun read _ => hbehind read
  · exact forall_mem_bind fun read _ => hbehind read

theorem keyed_of_unsignedNumber? (negative : Bool) (text : List Char) :
    ∀ result ∈ unsignedNumber? negative text, result.1.Keyed := by
  unfold unsignedNumber?
  dsimp only
  repeat' split
  all_goals first
    | exact keyed_of_fractionAndExponent? _ _ _ _
    | rintro _ ⟨⟩ <;> constructor

theorem keyed_of_number? (text : List Char) : ∀ result ∈ number? text, result.1.Keyed := by
  unfold number?
  split
  · exact keyed_of_unsignedNumber? _ _
  · exact keyed_of_unsignedNumber? _ _

theorem keyed_of_value?_of_below {depth : Nat}
    (hbelow : ∀ below, depth = below + 1 → ∀ text, ∀ result ∈ value? below text, result.1.Keyed)
    (text : List Char) : ∀ result ∈ value? depth text, result.1.Keyed := by
  have hleaf : ∀ (rest? : Option (List Char)) (json : Json), json.Keyed →
      ∀ result ∈ rest?.map fun rest => (json, rest), result.1.Keyed :=
    fun rest? json hjson => forall_mem_map fun _ _ => hjson
  have harray : ∀ rest : List Char, ∀ result ∈ some (Json.array [], rest), result.1.Keyed := by
    rintro rest _ ⟨⟩
    exact .array (by simp)
  have hobject : ∀ rest : List Char, ∀ result ∈ some (Json.object [], rest), result.1.Keyed := by
    rintro rest _ ⟨⟩
    exact .object List.nodup_nil (by simp)
  unfold value?
  repeat' split
  all_goals first
    | exact hleaf _ _ .null
    | exact hleaf _ _ (.bool _)
    | exact keyed_of_number? _
    | exact harray _
    | exact hobject _
    | exact forall_mem_map fun read _ => .string read.1
    | exact forall_mem_map fun read hread =>
        .array (keyed_of_items? (hbelow _ rfl) _ _ read hread)
    | exact forall_mem_map fun read hread =>
        keyed_object_ofPairs (keyed_of_members? (hbelow _ rfl) _ _ read hread)
    | simp

theorem keyed_of_value? (depth : Nat) (text : List Char) :
    ∀ result ∈ value? depth text, result.1.Keyed := by
  induction depth generalizing text with
  | zero => exact keyed_of_value?_of_below (fun below hdepth => by simp at hdepth) text
  | succ depth ih =>
      refine keyed_of_value?_of_below (fun below hdepth => ?_) text
      obtain rfl := Nat.succ.inj hdepth
      exact ih

theorem keyed_of_ofString? {text : String} {json : Json} (hread : ofString? text = some json) :
    json.Keyed := by
  have hall : ∀ json ∈ ofText? text.toList, json.Keyed := by
    unfold ofText?
    refine forall_mem_bind fun read hvalue => ?_
    have hkeyed := keyed_of_value? _ _ read hvalue
    dsimp only
    split
    · rintro _ ⟨⟩
      exact hkeyed
    · simp
  exact hall json hread

end Json

/-! ## Values read from YAML -/

namespace Yaml.Content

mutual

theorem keyed_of_toJson? : ∀ content : Content, ∀ json ∈ content.toJson?, json.Keyed
  | .null => by
      rintro _ ⟨⟩
      exact .null
  | .bool value => by
      rintro _ ⟨⟩
      exact .bool value
  | .integer value => by
      rintro _ ⟨⟩
      exact .integer value
  | .decimal value => by
      unfold toJson?
      split
      · rintro _ ⟨⟩
        exact .decimal value
      · rintro _ ⟨⟩
        exact .null
  | .string value => by
      rintro _ ⟨⟩
      exact .string value
  | .sequence items => by
      unfold toJson?
      exact Json.forall_mem_map fun read hread => .array (keyed_of_itemsToJson? items read hread)
  | .mapping entries => by
      unfold toJson?
      exact Json.forall_mem_map fun read hread =>
        Json.keyed_object_ofPairs (keyed_of_entriesToJson? entries read hread)
  | .tagged tag content => by
      unfold toJson?
      refine Json.forall_mem_map fun read hread => ?_
      refine .object (List.nodup_singleton _) fun member hmem => ?_
      obtain rfl := List.mem_singleton.1 hmem
      exact keyed_of_toJson? content read hread

theorem keyed_of_itemsToJson? :
    ∀ items : List Content, ∀ read ∈ itemsToJson? items, ∀ json ∈ read, json.Keyed
  | [] => by
      rintro _ ⟨⟩
      simp
  | item :: rest => by
      unfold itemsToJson?
      refine Json.forall_mem_bind fun first hfirst => Json.forall_mem_bind fun others hothers => ?_
      rintro _ ⟨⟩ json hmem
      rcases List.mem_cons.1 hmem with rfl | hmem
      · exact keyed_of_toJson? item _ hfirst
      · exact keyed_of_itemsToJson? rest others hothers json hmem

theorem keyed_of_entriesToJson? :
    ∀ entries : List (Content × Content), ∀ read ∈ entriesToJson? entries,
      ∀ member ∈ read, member.2.Keyed
  | [] => by
      rintro _ ⟨⟩
      simp
  | (key, value) :: rest => by
      unfold entriesToJson?
      refine Json.forall_mem_bind fun name _ => Json.forall_mem_bind fun first hfirst =>
        Json.forall_mem_bind fun others hothers => ?_
      rintro _ ⟨⟩ member hmem
      rcases List.mem_cons.1 hmem with rfl | hmem
      · exact keyed_of_toJson? value _ hfirst
      · exact keyed_of_entriesToJson? rest others hothers member hmem

end

end Yaml.Content

theorem Yaml.keyed_of_toJson {text : String} {json : Json} (hread : Yaml.toJson text = .ok json) :
    json.Keyed := by
  unfold Yaml.toJson at hread
  dsimp only at hread
  split at hread
  · simp at hread
  · next content _ =>
      split at hread
      · next found hfound =>
          obtain rfl := Except.ok.inj hread
          exact content.keyed_of_toJson? found hfound
      · simp at hread

end ApiContract
