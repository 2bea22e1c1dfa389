import TokenConfig.Tlv

/-!
# Values by tag

What a sequence of tagged values says about each tag: the value of its last occurrence.

`TokenConfig.TagMap` keeps one value a tag, in ascending order of the tags, so two maps that answer
every look-up alike are equal (`TokenConfig.TagMap.ext_get?`). `TokenConfig.TagMap.get?_insert` is
the law of the one operation that changes a map, and `TokenConfig.TagMap.decode` reads a byte string
straight into a map.
-/

namespace TokenConfig

/-- A finite map from tags to values. -/
structure TagMap where
  /-- The tags with their values. -/
  entries : List (UInt32 × Bytes)
  /-- The tags ascend, so no tag comes twice. -/
  ascending : entries.Pairwise fun a b => a.1 < b.1
deriving DecidableEq

namespace TagMap

/-- The map without tags. -/
def empty : TagMap :=
  ⟨[], List.Pairwise.nil⟩

/-- The tags of a map in ascending order. -/
def tags (map : TagMap) : List UInt32 :=
  map.entries.map (·.1)

/-- The value of a tag. -/
def get? (map : TagMap) (tag : UInt32) : Option Bytes :=
  map.entries.lookup tag

/-- Whether a map has a value for a tag. -/
def contains (map : TagMap) (tag : UInt32) : Bool :=
  (map.get? tag).isSome

/-! ### Insertion -/

/-- The entries below a tag, which come before it. -/
def below (tag : UInt32) (entries : List (UInt32 × Bytes)) : List (UInt32 × Bytes) :=
  entries.takeWhile fun entry => entry.1 < tag

/-- The entries above a tag, which come after it. -/
def above (tag : UInt32) (entries : List (UInt32 × Bytes)) : List (UInt32 × Bytes) :=
  entries.dropWhile fun entry => entry.1 ≤ tag

theorem lt_of_mem_below {tag : UInt32} {entries : List (UInt32 × Bytes)} {entry : UInt32 × Bytes}
    (h : entry ∈ below tag entries) : entry.1 < tag := by
  induction entries with
  | nil => simp [below] at h
  | cons first rest ih =>
    rw [below, List.takeWhile_cons] at h
    split at h
    · next hlt =>
      rcases List.mem_cons.mp h with rfl | h
      · simpa using hlt
      · exact ih h
    · cases h

theorem lt_of_mem_above {tag : UInt32} {entries : List (UInt32 × Bytes)} {entry : UInt32 × Bytes}
    (sorted : entries.Pairwise fun a b => a.1 < b.1) (h : entry ∈ above tag entries) :
    tag < entry.1 := by
  induction entries with
  | nil => simp [above] at h
  | cons first rest ih =>
    rw [above, List.dropWhile_cons] at h
    rw [List.pairwise_cons] at sorted
    split at h
    · exact ih sorted.2 h
    · next hle =>
      have hfirst : tag < first.1 := by
        simp only [decide_eq_true_eq, UInt32.not_le] at hle
        exact hle
      rcases List.mem_cons.mp h with rfl | h
      · exact hfirst
      · exact UInt32.lt_trans hfirst (sorted.1 entry h)

theorem ascending_insert {tag : UInt32} {value : Bytes} {entries : List (UInt32 × Bytes)}
    (sorted : entries.Pairwise fun a b => a.1 < b.1) :
    (below tag entries ++ (tag, value) :: above tag entries).Pairwise fun a b => a.1 < b.1 := by
  rw [List.pairwise_append]
  refine ⟨sorted.sublist (List.takeWhile_sublist _), ?_, ?_⟩
  · rw [List.pairwise_cons]
    exact ⟨fun entry h => lt_of_mem_above sorted h, sorted.sublist (List.dropWhile_sublist _)⟩
  · intro a ha b hb
    have halt := lt_of_mem_below ha
    rcases List.mem_cons.mp hb with rfl | hb
    · exact halt
    · exact UInt32.lt_trans halt (lt_of_mem_above sorted hb)

/-- The map with `value` at `tag`, whatever was there before. -/
def insert (map : TagMap) (tag : UInt32) (value : Bytes) : TagMap :=
  ⟨below tag map.entries ++ (tag, value) :: above tag map.entries, ascending_insert map.ascending⟩

/-- The map of a sequence of tagged values: a later value of a tag replaces an earlier one. -/
def ofList (tlvs : List Tlv) : TagMap :=
  tlvs.foldl (fun map tlv => map.insert tlv.tag tlv.value) empty

/-- The map that a byte string encodes. -/
def decode (bytes : Bytes) : Except Error TagMap :=
  match Tlv.decode? bytes with
  | some tlvs => .ok (ofList tlvs)
  | none => .error (.malformed .notTagged)

/-- The value of a tag read as a number of 32 bits, zero if there is none. -/
def word (map : TagMap) (tag : UInt32) : UInt32 :=
  match map.get? tag with
  | some value => value.toWord
  | none => 0

/-! ### Look-up -/

@[simp] theorem get?_empty (tag : UInt32) : empty.get? tag = none := rfl

/-- An entry is found under its tag: no other entry has that tag. -/
theorem get?_eq_some_iff {map : TagMap} {tag : UInt32} {value : Bytes} :
    map.get? tag = some value ↔ (tag, value) ∈ map.entries := by
  obtain ⟨entries, sorted⟩ := map
  simp only [get?]
  induction entries with
  | nil => simp
  | cons first rest ih =>
    obtain ⟨t, v⟩ := first
    rw [List.pairwise_cons] at sorted
    rw [List.lookup_cons]
    by_cases ht : tag = t
    · subst ht
      simp only [beq_self_eq_true, Option.some.injEq, List.mem_cons, Prod.mk.injEq, true_and]
      constructor
      · rintro rfl
        exact Or.inl rfl
      · rintro (rfl | hmem)
        · rfl
        · exact absurd (sorted.1 _ hmem) (UInt32.lt_irrefl _)
    · have hne : (tag == t) = false := by simpa using ht
      simp only [hne, List.mem_cons, Prod.mk.injEq, ht, false_and, false_or]
      exact ih sorted.2

/-- Of the entries of a map, insertion keeps those of other tags. -/
theorem mem_insert_iff {map : TagMap} {tag : UInt32} {value : Bytes} {entry : UInt32 × Bytes} :
    entry ∈ (map.insert tag value).entries ↔
      entry = (tag, value) ∨ entry.1 ≠ tag ∧ entry ∈ map.entries := by
  obtain ⟨entries, sorted⟩ := map
  simp only [insert, List.mem_append, List.mem_cons]
  constructor
  · rintro (h | rfl | h)
    · refine Or.inr ⟨fun heq => ?_, (List.takeWhile_sublist _).mem h⟩
      have := lt_of_mem_below h
      rw [heq] at this
      exact UInt32.lt_irrefl _ this
    · exact Or.inl rfl
    · refine Or.inr ⟨fun heq => ?_, (List.dropWhile_sublist _).mem h⟩
      have := lt_of_mem_above sorted h
      rw [heq] at this
      exact UInt32.lt_irrefl _ this
  · rintro (rfl | ⟨hne, hmem⟩)
    · exact Or.inr (Or.inl rfl)
    · rcases UInt32.lt_or_lt_of_ne hne with hlt | hgt
      · refine Or.inl ?_
        clear hne
        induction entries with
        | nil => cases hmem
        | cons first rest ih =>
          rw [List.pairwise_cons] at sorted
          have hfirst : first.1 < tag := by
            rcases List.mem_cons.mp hmem with rfl | hmem
            · exact hlt
            · exact UInt32.lt_trans (sorted.1 _ hmem) hlt
          rw [below, List.takeWhile_cons_of_pos (by simpa using hfirst)]
          rcases List.mem_cons.mp hmem with rfl | hmem
          · exact List.mem_cons_self
          · exact List.mem_cons_of_mem _ (ih sorted.2 hmem)
      · refine Or.inr (Or.inr ?_)
        clear hne
        induction entries with
        | nil => cases hmem
        | cons first rest ih =>
          rw [List.pairwise_cons] at sorted
          rw [above, List.dropWhile_cons]
          split
          · next hle =>
            rcases List.mem_cons.mp hmem with rfl | hmem
            · simp only [decide_eq_true_eq] at hle
              exact absurd hgt (UInt32.not_lt.mpr hle)
            · exact ih sorted.2 hmem
          · exact hmem

/-- An insertion is seen at its own tag and nowhere else. -/
theorem get?_insert (map : TagMap) (tag : UInt32) (value : Bytes) (other : UInt32) :
    (map.insert tag value).get? other = if other = tag then some value else map.get? other := by
  apply Option.ext
  intro found
  rw [get?_eq_some_iff, mem_insert_iff]
  split
  · next h => subst h; simp [eq_comm]
  · next h => rw [get?_eq_some_iff]; simp [h]

/-! ### Equality -/

/-- Ascending entries are in one order only. -/
theorem entries_eq_of_mem_iff {a b : List (UInt32 × Bytes)}
    (ha : a.Pairwise fun x y => x.1 < y.1) (hb : b.Pairwise fun x y => x.1 < y.1)
    (h : ∀ entry, entry ∈ a ↔ entry ∈ b) : a = b := by
  induction a generalizing b with
  | nil =>
    cases b with
    | nil => rfl
    | cons first rest => exact absurd ((h first).mpr List.mem_cons_self) (by simp)
  | cons x a ih =>
    cases b with
    | nil => exact absurd ((h x).mp List.mem_cons_self) (by simp)
    | cons y b =>
      rw [List.pairwise_cons] at ha hb
      have hxy : x = y := by
        rcases List.mem_cons.mp ((h x).mp List.mem_cons_self) with hx | hx
        · exact hx
        · rcases List.mem_cons.mp ((h y).mpr List.mem_cons_self) with hy | hy
          · exact hy.symm
          · exact absurd (UInt32.lt_trans (ha.1 y hy) (hb.1 x hx)) (UInt32.lt_irrefl _)
      subst hxy
      congr 1
      refine ih ha.2 hb.2 fun entry => ⟨fun he => ?_, fun he => ?_⟩
      · rcases List.mem_cons.mp ((h entry).mp (List.mem_cons_of_mem _ he)) with rfl | hm
        · exact absurd (ha.1 _ he) (UInt32.lt_irrefl _)
        · exact hm
      · rcases List.mem_cons.mp ((h entry).mpr (List.mem_cons_of_mem _ he)) with rfl | hm
        · exact absurd (hb.1 _ he) (UInt32.lt_irrefl _)
        · exact hm

/-- Maps that answer every look-up alike are equal. -/
theorem ext_get? {a b : TagMap} (h : ∀ tag, a.get? tag = b.get? tag) : a = b := by
  have hentries : a.entries = b.entries :=
    entries_eq_of_mem_iff a.ascending b.ascending fun ⟨tag, value⟩ => by
      rw [← get?_eq_some_iff, ← get?_eq_some_iff, h]
  cases a
  cases b
  simpa using hentries

end TagMap

end TokenConfig
