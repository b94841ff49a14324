/-!
# Dictionaries keyed by text

Entries are kept in ascending order of their keys, which for text is the order
of code points and so also of UTF-8 bytes. Two dictionaries with the same
look-ups are therefore the same list (`Dict.ext_find?`).
-/

namespace DevicePlugin

namespace Entries

variable {α : Type}

/-- Keys ascend strictly. -/
def Sorted (entries : List (String × α)) : Prop :=
  entries.Pairwise fun a b => a.1 < b.1

/-- Puts an entry at its place, over the entry that has its key. -/
def insert (key : String) (value : α) : List (String × α) → List (String × α)
  | [] => [(key, value)]
  | (k, v) :: rest =>
    if key < k then (key, value) :: (k, v) :: rest
    else if key = k then (key, value) :: rest
    else (k, v) :: insert key value rest

def find? (key : String) : List (String × α) → Option α
  | [] => none
  | (k, v) :: rest => if key = k then some v else find? key rest

theorem mem_of_mem_insert {key : String} {value : α} {entries : List (String × α)} {e : String × α}
    (h : e ∈ insert key value entries) : e = (key, value) ∨ e ∈ entries := by
  induction entries with
  | nil => simpa [insert] using h
  | cons entry rest ih =>
    obtain ⟨k, v⟩ := entry
    simp only [insert] at h
    split at h
    · simpa using h
    · split at h
      · simp only [List.mem_cons] at h ⊢
        rcases h with h | h
        · exact .inl h
        · exact .inr (.inr h)
      · simp only [List.mem_cons] at h ⊢
        rcases h with h | h
        · exact .inr (.inl h)
        · rcases ih h with h | h
          · exact .inl h
          · exact .inr (.inr h)

theorem Sorted.insert {entries : List (String × α)} (h : Sorted entries) (key : String) (value : α) :
    Sorted (Entries.insert key value entries) := by
  induction entries with
  | nil => simp [Entries.insert, Sorted]
  | cons entry rest ih =>
    obtain ⟨k, v⟩ := entry
    obtain ⟨hk, hrest⟩ := List.pairwise_cons.1 h
    simp only [Entries.insert]
    split
    · rename_i hlt
      refine List.pairwise_cons.2 ⟨fun e he => ?_, h⟩
      rcases List.mem_cons.1 he with rfl | he
      · exact hlt
      · exact String.lt_trans hlt (hk e he)
    · rename_i hge
      split
      · rename_i heq
        subst heq
        exact List.pairwise_cons.2 ⟨hk, hrest⟩
      · rename_i hne
        refine List.pairwise_cons.2 ⟨fun e he => ?_, ih hrest⟩
        rcases mem_of_mem_insert he with rfl | he
        · rcases Std.lt_trichotomy key k with hlt | heq | hgt
          · exact absurd hlt hge
          · exact absurd heq hne
          · exact hgt
        · exact hk e he

theorem find?_insert (key : String) (value : α) (entries : List (String × α)) (k : String) :
    find? k (insert key value entries) = if k = key then some value else find? k entries := by
  induction entries with
  | nil => simp [insert, find?]
  | cons entry rest ih =>
    obtain ⟨k', v⟩ := entry
    simp only [insert]
    split
    · simp only [find?]
    · split
      · rename_i heq
        subst heq
        by_cases h : k = key <;> simp [find?, h]
      · rename_i hne
        by_cases h : k = k'
        · subst h
          simp [find?, Ne.symm hne]
        · simp [find?, h, ih]

theorem find?_eq_none_of_lt {entries : List (String × α)} {k : String}
    (h : ∀ e ∈ entries, k < e.1) : find? k entries = none := by
  induction entries with
  | nil => rfl
  | cons entry rest ih =>
    obtain ⟨k', v⟩ := entry
    have hlt : k < k' := h (k', v) (List.mem_cons_self ..)
    have hne : k ≠ k' := fun heq => String.lt_irrefl k' (heq ▸ hlt)
    simp [find?, hne, ih fun e he => h e (List.mem_cons_of_mem _ he)]

/-- Sorted entries are determined by what their keys stand for. -/
theorem Sorted.eq_of_find? {as bs : List (String × α)} (ha : Sorted as) (hb : Sorted bs)
    (h : ∀ k, find? k as = find? k bs) : as = bs := by
  induction as generalizing bs with
  | nil =>
    cases bs with
    | nil => rfl
    | cons b bs => simpa [find?] using h b.1
  | cons a as ih =>
    obtain ⟨ka, va⟩ := a
    obtain ⟨hka, hra⟩ := List.pairwise_cons.1 ha
    cases bs with
    | nil => simpa [find?] using h ka
    | cons b bs =>
      obtain ⟨kb, vb⟩ := b
      obtain ⟨hkb, hrb⟩ := List.pairwise_cons.1 hb
      have hkeys : ka = kb := by
        rcases Std.lt_trichotomy ka kb with hlt | heq | hgt
        · have hnone : find? ka ((kb, vb) :: bs) = none := by
            apply find?_eq_none_of_lt
            intro e he
            rcases List.mem_cons.1 he with rfl | he
            · exact hlt
            · exact String.lt_trans hlt (hkb e he)
          have := h ka
          rw [hnone] at this
          simp [find?] at this
        · exact heq
        · have hnone : find? kb ((ka, va) :: as) = none := by
            apply find?_eq_none_of_lt
            intro e he
            rcases List.mem_cons.1 he with rfl | he
            · exact hgt
            · exact String.lt_trans hgt (hka e he)
          have := h kb
          rw [hnone] at this
          simp [find?] at this
      subst hkeys
      have hvals : va = vb := by simpa [find?] using h ka
      subst hvals
      congr 1
      refine ih hra hrb fun k => ?_
      by_cases hk : k = ka
      · subst hk
        rw [find?_eq_none_of_lt hka, find?_eq_none_of_lt hkb]
      · simpa [find?, hk] using h k

/-- An entry is found under its key, which no other entry has. -/
theorem Sorted.find?_eq_some_iff {entries : List (String × α)} (h : Sorted entries) {k : String} {v : α} :
    find? k entries = some v ↔ (k, v) ∈ entries := by
  induction entries with
  | nil => simp [find?]
  | cons entry rest ih =>
    obtain ⟨k', v'⟩ := entry
    obtain ⟨hk, hrest⟩ := List.pairwise_cons.1 h
    by_cases heq : k = k'
    · subst heq
      have hnot : (k, v) ∉ rest := fun hmem => String.lt_irrefl k (hk (k, v) hmem)
      simp [find?, hnot, eq_comm]
    · simp [find?, heq, ih hrest]

end Entries

/-- A finite map from text, in the order of its keys. -/
structure Dict (α : Type) where
  entries : List (String × α)
  sorted : Entries.Sorted entries
  deriving DecidableEq

namespace Dict

variable {α : Type}

def empty : Dict α := ⟨[], List.Pairwise.nil⟩

instance : Inhabited (Dict α) := ⟨empty⟩

def insert (d : Dict α) (key : String) (value : α) : Dict α :=
  ⟨Entries.insert key value d.entries, d.sorted.insert key value⟩

def find? (d : Dict α) (key : String) : Option α :=
  Entries.find? key d.entries

def contains (d : Dict α) (key : String) : Bool :=
  (d.find? key).isSome

def size (d : Dict α) : Nat :=
  d.entries.length

/-- Adds the pairs from left to right, so a repeated key keeps its last value. -/
def insertMany (d : Dict α) (pairs : List (String × α)) : Dict α :=
  pairs.foldl (fun d p => d.insert p.1 p.2) d

def ofList (pairs : List (String × α)) : Dict α :=
  empty.insertMany pairs

def overriddenBy (a b : Dict α) : Dict α :=
  a.insertMany b.entries

def erase (d : Dict α) (key : String) : Dict α :=
  ⟨d.entries.filter (fun e => e.1 != key), d.sorted.filter _⟩

def map {β : Type} (d : Dict α) (f : α → β) : Dict β :=
  ⟨d.entries.map fun e => (e.1, f e.2), by
    have h := d.sorted
    simp only [Entries.Sorted, List.pairwise_map] at h ⊢
    exact h⟩

@[simp] theorem find?_empty (k : String) : (empty : Dict α).find? k = none := rfl

theorem find?_insert (d : Dict α) (key : String) (value : α) (k : String) :
    (d.insert key value).find? k = if k = key then some value else d.find? k :=
  Entries.find?_insert key value d.entries k

theorem mem_entries_iff {d : Dict α} {k : String} {v : α} : (k, v) ∈ d.entries ↔ d.find? k = some v :=
  d.sorted.find?_eq_some_iff.symm

theorem find?_insertMany {pairs : List (String × α)} (h : Entries.Sorted pairs) (d : Dict α) (k : String) :
    (d.insertMany pairs).find? k = (Entries.find? k pairs).or (d.find? k) := by
  induction pairs generalizing d with
  | nil => rfl
  | cons pair rest ih =>
    obtain ⟨hless, hrest⟩ := List.pairwise_cons.1 h
    have hstep := ih hrest (d.insert pair.1 pair.2)
    rw [find?_insert] at hstep
    by_cases hk : k = pair.1
    · -- The keys after this one are greater, so its value stays.
      subst hk
      have hlater : Entries.find? pair.1 rest = none := Entries.find?_eq_none_of_lt hless
      simpa [insertMany, Entries.find?, hlater] using hstep
    · simpa [insertMany, Entries.find?, hk] using hstep

theorem find?_overriddenBy (a b : Dict α) (k : String) :
    (a.overriddenBy b).find? k = (b.find? k).or (a.find? k) :=
  find?_insertMany b.sorted a k

theorem ext_find? {a b : Dict α} (h : ∀ k, a.find? k = b.find? k) : a = b := by
  cases a with | mk as ha => cases b with | mk bs hb =>
    have := Entries.Sorted.eq_of_find? ha hb h
    subst this
    rfl

def tally (names : List String) : Dict Nat :=
  names.foldl (fun d name => d.insert name ((d.find? name).getD 0 + 1)) .empty

end Dict

end DevicePlugin
