import DevicePlugin.Property.Json
import DevicePlugin.Proofs.Graph.Document

/-!
# Reading back property maps

JSON does not tell a signed number from an unsigned one, nor what an empty list
is a list of. Apart from that a property map is read back as it was written, and
whatever is read is in the form that is read back exactly.
-/

namespace DevicePlugin

open Json (Tree Value)

theorem Json.Tree.whole_array (depth : Nat) (items : List Tree) :
    (Tree.array items .closed).whole (depth + 2) = (Tree.wholeItems (depth + 1) items).map .list := by
  rw [Tree.whole, if_neg (by omega)]
  change (Tree.wholeItems (depth + 1) items).bind _ = _
  cases Tree.wholeItems (depth + 1) items <;> rfl

theorem Json.Tree.wholeItems_map {α : Type} {depth : Nat} {write : α → Tree} {kept : α → Untyped}
    (h : ∀ a, (write a).whole depth = .ok (kept a)) (as : List α) :
    Tree.wholeItems depth (as.map write) = .ok (as.map kept) := by
  induction as with
  | nil => rfl
  | cons a as ih => simp [Tree.wholeItems, h, ih, bind, Except.bind, pure, Except.pure]

theorem mapM_map_some {α β : Type} {write : α → β} (read : β → Option α) (h : ∀ a, read (write a) = some a)
    (as : List α) : (as.map write).mapM read = some as := by
  induction as with
  | nil => rfl
  | cons a as ih => simp [h, ih]

theorem ne_nil_of_mapM_cons {α β : Type} {read : α → Option β} {a : α} {as : List α} {bs : List β}
    (h : (a :: as).mapM read = some bs) : bs ≠ [] := by
  rintro rfl
  rw [List.mapM_cons] at h
  cases hfirst : read a <;> cases hrest : as.mapM read <;> simp [hfirst, hrest] at h

namespace PropertyName

def kept (p : PropertyName) : Untyped :=
  .mapping [(.text "name", .text p.name), (.text "mutability", .text p.mutability.key)]

theorem whole_toJson (p : PropertyName) (depth : Nat) :
    p.toJson.toTree.whole (depth + 2) = .ok p.kept := by
  simp [toJson, Value.toTree, Value.memberTrees, Tree.whole, Tree.wholeMembers, Json.Stop.check, Json.Stop.fault?,
    kept, bind, Except.bind, pure, Except.pure]

theorem ofUntyped?_kept (p : PropertyName) : ofUntyped? p.kept = some p := by
  simp [kept, ofUntyped?, ofMembers?, Field.ofKey?, Mutability.ofUntyped?]

theorem toJson_written (p : PropertyName) : p.toJson.IsWritten := ⟨trivial, trivial, trivial⟩

end PropertyName

namespace PropertyValue

/-- The form in which a value is read: numbers that are not negative are unsigned, and a list without
items is one of texts. -/
def normal : PropertyValue → PropertyValue
  | .int value => if 0 ≤ value.toInt then .uint (UInt64.ofNat value.toInt.toNat) else .int value
  | .names [] => .texts []
  | value => value

theorem normal_int (value : Int64) :
    normal (.int value) = if 0 ≤ value.toInt then .uint (UInt64.ofNat value.toInt.toNat) else .int value :=
  rfl

theorem normal_int_of_neg {value : Int64} (h : ¬ 0 ≤ value.toInt) : normal (.int value) = .int value := by
  rw [normal_int, if_neg h]

theorem normal_names_of_ne_nil {names : List PropertyName} (h : names ≠ []) : normal (.names names) = .names names := by
  cases names with
  | nil => exact absurd rfl h
  | cons name names => rfl

/-! ## Writing -/

theorem toJson_normal (v : PropertyValue) : v.normal.toJson = v.toJson := by
  cases v with
  | int value =>
    by_cases h : 0 ≤ value.toInt
    · simp [normal_int, toJson, h]
    · rw [normal_int_of_neg h]
  | names values => cases values <;> rfl
  | _ => rfl

theorem toJson_written (v : PropertyValue) : v.toJson.IsWritten := by
  cases v with
  | int value =>
    by_cases h : 0 ≤ value.toInt
    · simp only [toJson, if_pos h]
      trivial
    · simp only [toJson, if_neg h]
      exact Int64.lt_iff_toInt_lt.2 (Int.not_le.1 h)
  | texts values =>
    change Value.ItemsWritten _
    rw [Value.itemsWritten_iff]
    intro item hitem
    obtain ⟨s, -, rfl⟩ := List.mem_map.1 hitem
    trivial
  | names values =>
    change Value.ItemsWritten _
    rw [Value.itemsWritten_iff]
    intro item hitem
    obtain ⟨p, -, rfl⟩ := List.mem_map.1 hitem
    exact p.toJson_written
  | _ => trivial

/-! ## Reading -/

theorem decode_of_whole {tree : Tree} (whole : Untyped) {v : PropertyValue}
    (hwhole : tree.whole depthLimit = .ok whole) (h : ofUntyped? whole = some v) : decode tree = .ok v := by
  unfold decode
  rw [hwhole]
  simp only [h]

theorem decode_texts (items : List String) :
    decode (PropertyValue.texts items).toJson.toTree = .ok (.texts items) := by
  have hitems : Tree.wholeItems 126 ((items.map Value.text).map Value.toTree) = .ok (items.map .text) := by
    rw [List.map_map]
    exact Tree.wholeItems_map (fun _ => rfl) items
  have hread : (items.map Untyped.text).mapM textOfUntyped? = some items :=
    mapM_map_some textOfUntyped? (fun _ => rfl) items
  refine decode_of_whole (.list (items.map .text)) ?_ (by simp only [ofUntyped?, hread])
  rw [toJson, Value.toTree, Value.itemTrees_eq_map, depthLimit, Tree.whole_array, hitems]
  rfl

theorem decode_names {names : List PropertyName} (h : names ≠ []) :
    decode (PropertyValue.names names).toJson.toTree = .ok (.names names) := by
  have hitems : Tree.wholeItems 126 ((names.map PropertyName.toJson).map Value.toTree) =
      .ok (names.map PropertyName.kept) := by
    rw [List.map_map]
    exact Tree.wholeItems_map (fun p => p.whole_toJson 124) names
  have hread : (names.map PropertyName.kept).mapM PropertyName.ofUntyped? = some names :=
    mapM_map_some PropertyName.ofUntyped? PropertyName.ofUntyped?_kept names
  -- A list of names is not taken for one of texts, since its first item is a mapping.
  have hno : (names.map PropertyName.kept).mapM textOfUntyped? = none := by
    cases names with
    | nil => exact absurd rfl h
    | cons name names => rfl
  refine decode_of_whole (.list (names.map PropertyName.kept)) ?_
    (by simp only [ofUntyped?, hno, hread, Option.map_some])
  rw [toJson, Value.toTree, Value.itemTrees_eq_map, depthLimit, Tree.whole_array, hitems]
  rfl

theorem decode_toJson (v : PropertyValue) : decode v.toJson.toTree = .ok v.normal := by
  cases v with
  | bool value => rfl
  | uint value => rfl
  | int value =>
    by_cases h : 0 ≤ value.toInt
    · simp only [toJson, normal_int, if_pos h]
      rfl
    · simp only [toJson, normal_int, if_neg h]
      exact decode_of_whole (.int value) rfl (by simp only [ofUntyped?, if_neg h])
  | text s => rfl
  | texts items => exact decode_texts items
  | names values =>
    by_cases h : values = []
    · subst h
      exact decode_texts []
    · rw [normal_names_of_ne_nil h]
      exact decode_names h

/-! ## What is read is normal -/

theorem normal_of_ofUntyped? {u : Untyped} {v : PropertyValue} (h : ofUntyped? u = some v) : v.normal = v := by
  cases u with
  | int value =>
    simp only [ofUntyped?, Option.some.injEq] at h
    subst h
    by_cases hvalue : 0 ≤ value.toInt
    · rw [if_pos hvalue]
      rfl
    · rw [if_neg hvalue, normal_int_of_neg hvalue]
  | list items =>
    simp only [ofUntyped?] at h
    split at h
    · cases h
      rfl
    · rename_i hno
      obtain ⟨names, hnames, rfl⟩ := Option.map_eq_some_iff.1 h
      refine normal_names_of_ne_nil fun hnil => ?_
      -- Without items the list would have been taken for one of texts.
      cases items with
      | nil => cases hno
      | cons item items => exact ne_nil_of_mapM_cons hnames hnil
  | null => cases h
  | fraction => cases h
  | mapping members => cases h
  | bool value => cases h; rfl
  | uint value => cases h; rfl
  | text s => cases h; rfl

theorem normal_of_decode {tree : Tree} {v : PropertyValue} (h : decode tree = .ok v) : v.normal = v := by
  unfold decode at h
  split at h
  · cases h
  · split at h
    · rename_i whole _ value hvalue
      cases h
      exact normal_of_ofUntyped? hvalue
    · cases h

end PropertyValue

namespace PropertyMap

def Normal (m : PropertyMap) : Prop := ∀ e ∈ m.entries, e.2.normal = e.2

theorem map_normal_of_normal {m : PropertyMap} (h : m.Normal) : m.map PropertyValue.normal = m := by
  have hentries : m.entries.map (fun e => (e.1, e.2.normal)) = m.entries := by
    refine (List.map_congr_left fun e he => ?_).trans (List.map_id _)
    rw [h e he]
    rfl
  obtain ⟨entries, sorted⟩ := m
  simp only [Dict.map, hentries]

theorem normal_of_foldMembers {members : List (Option String × Tree)} {before m : PropertyMap}
    (hbefore : before.Normal)
    (h : Tree.foldMembers (fun (properties : PropertyMap) key value => do
      let value ← PropertyValue.decode value
      return properties.insert key value) before members = .ok m) : m.Normal := by
  induction members generalizing before with
  | nil =>
    cases h
    exact hbefore
  | cons member members ih =>
    obtain ⟨key, tree⟩ := member
    cases key with
    | none => cases h
    | some key =>
      simp only [Tree.foldMembers] at h
      cases hvalue : PropertyValue.decode tree with
      | error fault => simp [hvalue, bind, Except.bind] at h
      | ok value =>
        simp only [hvalue, bind, Except.bind, pure, Except.pure] at h
        refine ih (fun e he => ?_) h
        rcases Entries.mem_of_mem_insert he with rfl | he
        · exact PropertyValue.normal_of_decode hvalue
        · exact hbefore e he

theorem normal_of_decode {tree : Tree} {m : PropertyMap} (h : decode tree = .ok m) : m.Normal := by
  unfold decode Tree.asMembers at h
  split at h
  · rename_i members stop
    generalize hfold : Tree.foldMembers _ _ members = folded at h
    cases folded with
    | error fault => simp [bind, Except.bind] at h
    | ok found =>
      cases hstop : stop.check with
      | error fault => simp [hstop, bind, Except.bind] at h
      | ok _ =>
        simp only [hstop, bind, Except.bind, pure, Except.pure, Except.ok.injEq] at h
        subst h
        have hempty : PropertyMap.Normal .empty := fun e he => nomatch he
        exact normal_of_foldMembers hempty hfold
  · cases h

theorem normal_of_ofJson {text : Bytes} {m : PropertyMap} (h : ofJson text = .ok m) : m.Normal := by
  unfold ofJson Json.decode at h
  split at h
  split at h
  · cases h
  · rename_i read hread
    split at h
    · cases h
      exact normal_of_decode hread
    · cases h

theorem toJson_written (m : PropertyMap) : m.toJson.IsWritten := by
  change Value.MembersWritten _
  rw [Value.membersWritten_iff]
  intro member hmember
  obtain ⟨e, -, rfl⟩ := List.mem_map.1 hmember
  exact e.2.toJson_written

theorem toJson_map_normal (m : PropertyMap) : toJson (m.map PropertyValue.normal) = m.toJson := by
  simp [toJson, Dict.map, PropertyValue.toJson_normal]

theorem ofJson_toJson_of_normal {m : PropertyMap} (h : m.Normal) : ofJson m.toJson.bytes = .ok m := by
  have hfold := Tree.foldMembers_insert
    (fun (properties : PropertyMap) key value => do
      let value ← PropertyValue.decode value
      return properties.insert key value)
    (fun v : PropertyValue => v.toJson.toTree) m.entries .empty m (fun before e he => by
      simp only [PropertyValue.decode_toJson, h e he, bind, Except.bind]
      rfl) rfl
  rw [ofJson, Json.decode_bytes _ m.toJson_written, toJson, Value.toTree, Value.memberTrees_eq_map, decode,
    Tree.asMembers]
  simp only [Dict.map, List.map_map, Function.comp_def, hfold]
  rfl

/-- A property map that is written and read back has all its values in normal form, and that form is written
as the same text. Whatever text a property map is read from, its values are in normal form, so that writing
and reading it gives it back. -/
theorem ofJson_toJson :
    (∀ m : PropertyMap,
      ofJson m.toJson.bytes = .ok (m.map PropertyValue.normal) ∧
        (toJson (m.map PropertyValue.normal)).bytes = m.toJson.bytes) ∧
    ∀ (text : Bytes) (m : PropertyMap), ofJson text = .ok m →
      m.map PropertyValue.normal = m ∧ ofJson m.toJson.bytes = .ok m := by
  constructor
  · intro m
    have hnormal : PropertyMap.Normal (m.map PropertyValue.normal) := by
      intro e he
      obtain ⟨e', -, rfl⟩ := List.mem_map.1 he
      exact PropertyValue.normal_of_decode (PropertyValue.decode_toJson e'.2)
    have hread := ofJson_toJson_of_normal hnormal
    rw [toJson_map_normal] at hread
    exact ⟨hread, by rw [toJson_map_normal]⟩
  · intro text m h
    have hnormal := normal_of_ofJson h
    exact ⟨map_normal_of_normal hnormal, ofJson_toJson_of_normal hnormal⟩

theorem ofJson_toJson_spaced :
    let text := Bytes.ofText "\x7b \"b\" : [ ], \"a\": -7, \"b\": [[\"x\", \"read_write\"]] \x7d"
    let m : PropertyMap := .ofList [("a", .int (-7)), ("b", .names [.readWrite "x"])]
    ofJson text = .ok m ∧ ofJson m.toJson.bytes = .ok m := by
  intro text m
  have hread : ofJson text = .ok m := by decide +kernel
  exact ⟨hread, (ofJson_toJson.2 text m hread).2⟩

example : Dict.map (.ofList [("a", .int 5), ("b", .int (-5)), ("c", .names [])]) PropertyValue.normal =
    .ofList [("a", .uint 5), ("b", .int (-5)), ("c", .texts [])] := by decide

end PropertyMap

end DevicePlugin
