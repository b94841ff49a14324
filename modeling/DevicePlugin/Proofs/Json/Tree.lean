import DevicePlugin.Json.Decode
import DevicePlugin.Json.Value
import DevicePlugin.Proofs.Json.Token

/-!
# Reading back documents

What is written for a value is read as the tree of that value, so a decoder may
be looked at on trees alone (`decode_bytes`).
-/

namespace DevicePlugin.Json

namespace Value

mutual

def toTree : Value → Tree
  | .null => .null
  | .bool value => .bool value
  | .natural value => .number (some (.natural value))
  | .negative value => .number (some (.negative value))
  | .text value => .text (some value)
  | .array items => .array (itemTrees items) .closed
  | .object members => .object (memberTrees members) .closed

def itemTrees : List Value → List Tree
  | [] => []
  | item :: items => item.toTree :: itemTrees items

def memberTrees : List (String × Value) → List (Option String × Tree)
  | [] => []
  | (key, value) :: members => (some key, value.toTree) :: memberTrees members

end

mutual

/-- Negative numbers are written only as such. -/
def IsWritten : Value → Prop
  | .negative value => value < 0
  | .array items => ItemsWritten items
  | .object members => MembersWritten members
  | _ => True

def ItemsWritten : List Value → Prop
  | [] => True
  | item :: items => item.IsWritten ∧ ItemsWritten items

def MembersWritten : List (String × Value) → Prop
  | [] => True
  | (_, value) :: members => value.IsWritten ∧ MembersWritten members

end

theorem itemsWritten_iff (items : List Value) : ItemsWritten items ↔ ∀ item ∈ items, item.IsWritten := by
  induction items with
  | nil => simp [ItemsWritten]
  | cons item items ih => simp [ItemsWritten, ih]

theorem membersWritten_iff (members : List (String × Value)) :
    MembersWritten members ↔ ∀ m ∈ members, m.2.IsWritten := by
  induction members with
  | nil => simp [MembersWritten]
  | cons m members ih => simp [MembersWritten, ih]

theorem itemTrees_eq_map (items : List Value) : itemTrees items = items.map toTree := by
  induction items with
  | nil => rfl
  | cons item items ih => simp [itemTrees, ih]

theorem memberTrees_eq_map (members : List (String × Value)) :
    memberTrees members = members.map fun m => (some m.1, m.2.toTree) := by
  induction members with
  | nil => rfl
  | cons m members ih => simp [memberTrees, ih]

theorem memberTrees_append (as bs : List (String × Value)) :
    memberTrees (as ++ bs) = memberTrees as ++ memberTrees bs := by
  simp [memberTrees_eq_map]

/-! ## Tokens of a value -/

open Token (Spaced)

theorem spaced_cons {t : Token} {rest : List Token} (ht : t.IsWritten) (hn : t.isNumber = false)
    (hrest : Spaced rest) : Spaced (t :: rest) := by
  refine ⟨ht, ?_, hrest⟩
  intro h
  rw [hn] at h
  cases h

theorem spaced_key {rest : List Token} (key : String) (hrest : Spaced rest) :
    Spaced (.text (some key) :: .colon :: rest) :=
  spaced_cons trivial rfl (spaced_cons trivial rfl hrest)

theorem head_moreItemTokens (items : List Value) (rest : List Token) :
    ∀ next ∈ (moreItemTokens items ++ rest).head?, next.isNumber = false := by
  cases items <;> simp [moreItemTokens, Token.isNumber]

theorem head_moreMemberTokens (members : List (String × Value)) (rest : List Token) :
    ∀ next ∈ (moreMemberTokens members ++ rest).head?, next.isNumber = false := by
  cases members <;> simp [moreMemberTokens, Token.isNumber]

mutual

theorem spaced_tokens : ∀ (v : Value) {rest : List Token}, v.IsWritten → Spaced rest →
    (∀ next ∈ rest.head?, next.isNumber = false) → Spaced (v.tokens ++ rest)
  | .null, _, _, hrest, _ => spaced_cons trivial rfl hrest
  | .bool _, _, _, hrest, _ => spaced_cons trivial rfl hrest
  | .natural _, _, _, hrest, hnext => ⟨trivial, fun _ => hnext, hrest⟩
  | .negative _, _, hv, hrest, hnext => ⟨hv, fun _ => hnext, hrest⟩
  | .text _, _, _, hrest, _ => spaced_cons trivial rfl hrest
  | .array [], _, _, hrest, _ => spaced_cons trivial rfl (spaced_cons trivial rfl hrest)
  | .array (item :: items), rest, hv, hrest, _ => by
    obtain ⟨hitem, hitems⟩ := hv
    simp only [tokens, itemTokens, List.cons_append, List.append_assoc]
    refine spaced_cons trivial rfl ?_
    exact spaced_tokens item hitem (spaced_moreItemTokens items hitems hrest) (head_moreItemTokens items rest)
  | .object [], _, _, hrest, _ => spaced_cons trivial rfl (spaced_cons trivial rfl hrest)
  | .object ((key, value) :: members), rest, hv, hrest, _ => by
    obtain ⟨hvalue, hmembers⟩ := hv
    simp only [tokens, memberTokens, List.cons_append, List.append_assoc]
    refine spaced_cons trivial rfl ?_
    exact spaced_key key (spaced_tokens value hvalue (spaced_moreMemberTokens members hmembers hrest)
      (head_moreMemberTokens members rest))

theorem spaced_moreItemTokens : ∀ (items : List Value) {rest : List Token}, ItemsWritten items →
    Spaced rest → Spaced (moreItemTokens items ++ rest)
  | [], _, _, hrest => spaced_cons trivial rfl hrest
  | item :: items, rest, h, hrest => by
    simp only [moreItemTokens, List.cons_append, List.append_assoc]
    exact spaced_cons trivial rfl (spaced_tokens item h.1 (spaced_moreItemTokens items h.2 hrest)
      (head_moreItemTokens items rest))

theorem spaced_moreMemberTokens : ∀ (members : List (String × Value)) {rest : List Token},
    MembersWritten members → Spaced rest → Spaced (moreMemberTokens members ++ rest)
  | [], _, _, hrest => spaced_cons trivial rfl hrest
  | (key, value) :: members, rest, h, hrest => by
    simp only [moreMemberTokens, List.cons_append, List.append_assoc]
    exact spaced_cons trivial rfl (spaced_key key (spaced_tokens value h.1
      (spaced_moreMemberTokens members h.2 hrest) (head_moreMemberTokens members rest)))

end

/-! ## Trees of tokens -/

theorem tokens_head (v : Value) : ∃ t ts, v.tokens = t :: ts ∧ t ≠ .closeBracket := by
  cases v <;> exact ⟨_, _, rfl, by simp⟩

end Value

namespace Tree

open Value

theorem readValue_array {fuel : Nat} {rest : List Token} {t : Token} {ts : List Token}
    (ht : t ≠ .closeBracket) (h : rest = t :: ts) :
    readValue (fuel + 1) (.openBracket :: rest) =
      (.array (readItems fuel rest).1 (readItems fuel rest).2.1, (readItems fuel rest).2.2) := by
  subst h
  cases t <;> first | rfl | exact absurd rfl ht

mutual

/-- A value is read with two steps of fuel for each of its tokens, and leaves what follows it. -/
theorem readValue_tokens : ∀ (v : Value) (fuel : Nat) (rest : List Token),
    2 * v.tokens.length ≤ fuel → readValue fuel (v.tokens ++ rest) = (v.toTree, rest)
  | .null, fuel + 1, _, _ => rfl
  | .bool _, fuel + 1, _, _ => rfl
  | .natural _, fuel + 1, _, _ => rfl
  | .negative _, fuel + 1, _, _ => rfl
  | .text _, fuel + 1, _, _ => rfl
  | .array [], fuel + 1, _, _ => rfl
  | .array (item :: items), fuel + 1, rest, hf => by
    simp only [tokens, itemTokens, List.length_cons, List.length_append] at hf
    have hitems := readItems_tokens item items fuel rest
      (by simp only [itemTokens, List.length_append]; omega)
    obtain ⟨t, ts, ht, hne⟩ := tokens_head item
    simp only [tokens, itemTokens, List.cons_append, List.append_assoc] at hitems ⊢
    rw [readValue_array hne (by rw [ht]; rfl), hitems]
    rfl
  | .object [], fuel + 1, _, _ => rfl
  | .object ((key, value) :: members), fuel + 1, rest, hf => by
    simp only [tokens, memberTokens, List.length_cons, List.length_append] at hf
    have hmembers := readMembers_tokens key value members fuel rest
      (by simp only [memberTokens, List.length_append, List.length_cons]; omega)
    simp only [tokens, memberTokens, List.cons_append, List.append_assoc] at hmembers ⊢
    simp only [readValue, hmembers]
    rfl
  | v, 0, _, hf => by
    obtain ⟨t, ts, ht, -⟩ := tokens_head v
    rw [ht] at hf
    simp at hf

theorem readItems_tokens : ∀ (item : Value) (items : List Value) (fuel : Nat) (rest : List Token),
    2 * (itemTokens (item :: items)).length + 1 ≤ fuel →
      readItems fuel (itemTokens (item :: items) ++ rest) = (itemTrees (item :: items), .closed, rest)
  | item, [], fuel + 1, rest, hf => by
    simp only [itemTokens, moreItemTokens, List.length_append] at hf
    have hitem := readValue_tokens item fuel (.closeBracket :: rest) (by omega)
    simp only [itemTokens, moreItemTokens, List.append_assoc, List.cons_append, List.nil_append, readItems,
      hitem]
    rfl
  | item, next :: items, fuel + 1, rest, hf => by
    simp only [itemTokens, moreItemTokens, List.length_append, List.length_cons] at hf
    have hitem := readValue_tokens item fuel (.comma :: (itemTokens (next :: items) ++ rest))
      (by omega)
    have hitems := readItems_tokens next items fuel rest
      (by simp only [itemTokens, List.length_append]; omega)
    simp only [itemTokens, moreItemTokens, List.append_assoc, List.cons_append] at hitem hitems ⊢
    simp only [readItems, hitem, hitems]
    rfl

theorem readMembers_tokens : ∀ (key : String) (value : Value) (members : List (String × Value)) (fuel : Nat)
    (rest : List Token), 2 * (memberTokens ((key, value) :: members)).length + 1 ≤ fuel →
      readMembers fuel (memberTokens ((key, value) :: members) ++ rest) =
        (memberTrees ((key, value) :: members), .closed, rest)
  | key, value, [], fuel + 1, rest, hf => by
    simp only [memberTokens, moreMemberTokens, List.length_append, List.length_cons] at hf
    have hvalue := readValue_tokens value fuel (.closeBrace :: rest) (by omega)
    simp only [memberTokens, moreMemberTokens, List.append_assoc, List.cons_append, List.nil_append,
      readMembers, hvalue]
    rfl
  | key, value, (key', value') :: members, fuel + 1, rest, hf => by
    simp only [memberTokens, moreMemberTokens, List.length_append, List.length_cons] at hf
    have hvalue := readValue_tokens value fuel
      (.comma :: (memberTokens ((key', value') :: members) ++ rest)) (by omega)
    have hmembers := readMembers_tokens key' value' members fuel rest
      (by simp only [memberTokens, List.length_append, List.length_cons]; omega)
    simp only [memberTokens, moreMemberTokens, List.append_assoc, List.cons_append] at hvalue hmembers ⊢
    simp only [readMembers, hvalue, hmembers]
    rfl

end

theorem ofBytes_bytes {v : Value} (hv : v.IsWritten) : ofBytes v.bytes = (v.toTree, []) := by
  have hspaced : Token.Spaced v.tokens := by
    have := @spaced_tokens v [] hv trivial (by simp)
    simpa using this
  have hread := readValue_tokens v (2 * v.tokens.length + 1) [] (by omega)
  rw [List.append_nil] at hread
  rw [ofBytes, Value.bytes, Token.ofBytes_bytes hspaced]
  exact hread

end Tree

/-- A decoder sees the tree of what was written. -/
theorem decode_bytes {α : Type} (decoder : Decoder α) {v : Value} (hv : v.IsWritten) :
    decode decoder v.bytes = decoder v.toTree := by
  rw [decode, Tree.ofBytes_bytes hv]
  cases h : decoder v.toTree <;> simp [h]

end DevicePlugin.Json
