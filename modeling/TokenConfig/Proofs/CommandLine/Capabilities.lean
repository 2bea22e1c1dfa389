import TokenConfig.CommandLine.Info
import TokenConfig.Proofs.Text.Numeral

/-!
# Capabilities as they are shown

A set of capabilities is shown by the names of those that have one, and the others as one number
(`TokenConfig.Info.capabilityText`). Every set is shown differently
(`TokenConfig.Info.capabilityText_injective`): the text is cut at its blanks into words
(`TokenConfig.Info.pieces_capabilityText`), only a number has an `x` among them, and so the words
tell which bits the set has (`TokenConfig.Info.words_injective`).
-/

namespace TokenConfig

/-! ### Flags that share no bits -/

/-- **Where flags share no bits**, those that describe a word are the ones that it has. -/
theorem FlagWord.listedFrom_eq_filter {width : Nat} {bits remaining : BitVec width}
    {flags : List (Flag width)}
    (hdisjoint : flags.Pairwise fun a b => a.mask &&& b.mask = 0)
    (hne : ∀ flag ∈ flags, flag.mask ≠ 0)
    (hremaining : ∀ flag ∈ flags, remaining &&& flag.mask = bits &&& flag.mask) :
    listedFrom bits remaining flags = flags.filter fun flag => bits &&& flag.mask = flag.mask := by
  induction flags generalizing remaining with
  | nil => rfl
  | cons flag flags ih =>
    obtain ⟨hfirst, hrest⟩ := List.pairwise_cons.mp hdisjoint
    obtain ⟨hflag, hflags⟩ := List.forall_mem_cons.mp hne
    obtain ⟨hsame, hothers⟩ := List.forall_mem_cons.mp hremaining
    rw [listedFrom, List.filter_cons]
    by_cases hhas : bits &&& flag.mask = flag.mask
    · -- what is described by this flag are no bits of the ones behind it
      have hkept : ∀ other ∈ flags,
          (remaining &&& ~~~flag.mask) &&& other.mask = bits &&& other.mask := by
        intro other hother
        have hapart : ~~~flag.mask &&& other.mask = other.mask := by
          apply BitVec.eq_of_getLsbD_eq
          intro i hi
          have hbit := congrArg (·.getLsbD i) (hfirst other hother)
          simp only [BitVec.ofNat_eq_ofNat, BitVec.getLsbD_and, BitVec.getLsbD_zero,
            Bool.and_eq_false_iff] at hbit
          rw [BitVec.getLsbD_and, BitVec.getLsbD_not]
          rcases hbit with hbit | hbit
          · rw [hbit, decide_eq_true hi, Bool.not_false, Bool.true_and, Bool.true_and]
          · rw [hbit, Bool.and_false]
        rw [BitVec.and_assoc, hapart, hothers other hother]
      rw [if_pos ⟨hhas, by rw [hsame, hhas]; exact hflag⟩, if_pos (decide_eq_true hhas),
        ih hrest hflags hkept]
    · rw [if_neg fun h => hhas h.1, if_neg (by simpa using hhas), ih hrest hflags hothers]

namespace Info

/-! ### Words -/

/-- The words that a set of capabilities is shown by. -/
def words (capabilities : Capabilities) : List String :=
  capabilities.names ++
    if capabilities.unknown = 0 then [] else [Hex.marked 4 capabilities.unknown.toNat]

theorem capabilityText_eq (capabilities : Capabilities) :
    capabilityText capabilities =
      if capabilities.isEmpty then nothing else " ".intercalate (words capabilities) :=
  rfl

theorem names_eq (capabilities : Capabilities) :
    capabilities.names = (capabilityVocabulary.flags.filter fun flag =>
      capabilities.bits &&& flag.mask = flag.mask).map (·.name) := by
  rw [FlagWord.names, FlagWord.listed,
    FlagWord.listedFrom_eq_filter (by decide) (by decide) fun _ _ => rfl]

/-- **Names and the bits without a name are all there is to know.** -/
theorem eq_of_names_eq {a b : Capabilities} (hnames : a.names = b.names)
    (hunknown : a.unknown = b.unknown) : a = b := by
  have hhas : ∀ {capabilities : Capabilities}, ∀ flag ∈ capabilityVocabulary.flags,
      flag.name ∈ capabilities.names ↔ capabilities.bits &&& flag.mask = flag.mask := by
    intro capabilities flag hflag
    -- no two capabilities have the same name
    have hinj : ∀ a ∈ capabilityVocabulary.flags, ∀ b ∈ capabilityVocabulary.flags,
        a.name = b.name → a = b := by decide
    rw [names_eq, List.mem_map]
    constructor
    · rintro ⟨other, hother, hname⟩
      obtain ⟨hmem, hin⟩ := List.mem_filter.mp hother
      obtain rfl := hinj other hmem flag hflag hname
      exact of_decide_eq_true hin
    · intro hin
      exact ⟨flag, List.mem_filter.mpr ⟨hflag, decide_eq_true hin⟩, rfl⟩
  -- a bit is that of a capability, or of none
  have hbits : ∀ i < 32, (∃ flag ∈ capabilityVocabulary.flags, flag.mask = BitVec.twoPow 32 i) ∨
      capabilityVocabulary.known.getLsbD i = false := by decide
  have hbits : a.bits = b.bits := by
    apply BitVec.eq_of_getLsbD_eq
    intro i hi
    rcases hbits i hi with ⟨flag, hflag, hmask⟩ | hunnamed
    · have hsame : a.bits &&& flag.mask = flag.mask ↔ b.bits &&& flag.mask = flag.mask := by
        rw [← hhas flag hflag, ← hhas flag hflag, hnames]
      rw [hmask, BitVec.and_twoPow, BitVec.and_twoPow] at hsame
      have hone : (0 : BitVec 32) ≠ BitVec.twoPow 32 i := fun h => by
        have hbit := congrArg (·.getLsbD i) h
        simp [hi] at hbit
      have hbit : ∀ bit : Bool, (if bit then BitVec.twoPow 32 i else 0#32) = BitVec.twoPow 32 i ↔
          bit = true := by
        rintro (_ | _)
        · exact iff_of_false hone Bool.false_ne_true
        · exact iff_of_true rfl rfl
      rw [hbit, hbit] at hsame
      exact Bool.eq_iff_iff.mpr hsame
    · have hbit := congrArg (·.getLsbD i) hunknown
      simpa only [FlagWord.unknown, BitVec.getLsbD_and, BitVec.getLsbD_not, hunnamed,
        decide_eq_true hi, Bool.not_false, Bool.true_and, Bool.and_true] using hbit
  obtain ⟨bits⟩ := a
  exact congrArg FlagWord.mk hbits

theorem mem_names {capabilities : Capabilities} {name : String}
    (h : name ∈ capabilities.names) : name ∈ capabilityVocabulary.flags.map (·.name) := by
  rw [names_eq] at h
  obtain ⟨flag, hflag, rfl⟩ := List.mem_map.mp h
  exact List.mem_map_of_mem (List.mem_of_mem_filter hflag)

/-- Whether a word is a name: of all words, only a number has an `x`. -/
def isName (word : String) : Bool :=
  !word.toList.contains 'x'

theorem isName_marked (width number : Nat) : isName (Hex.marked width number) = false := by
  have hx : 'x' ∈ (Hex.marked width number).toList := by
    rw [Hex.marked, String.toList_append]
    exact List.mem_append_left _ (by decide)
  rw [isName, List.contains_iff_mem.mpr hx, Bool.not_true]

theorem filter_isName_words (capabilities : Capabilities) :
    (words capabilities).filter isName = capabilities.names := by
  have hall : ∀ name ∈ capabilityVocabulary.flags.map (·.name), isName name = true := by decide
  have hnames : capabilities.names.filter isName = capabilities.names :=
    List.filter_eq_self.mpr fun name hname => hall name (mem_names hname)
  rw [words, List.filter_append, hnames]
  split
  · exact List.append_nil _
  · rw [List.filter_cons_of_neg (by rw [isName_marked]; exact Bool.false_ne_true)]
    exact List.append_nil _

/-- **The words tell what the set has.** -/
theorem words_injective : Function.Injective words := by
  intro a b h
  have hnames : a.names = b.names := by
    rw [← filter_isName_words, h, filter_isName_words]
  rw [words, words, hnames, List.append_cancel_left_eq] at h
  refine eq_of_names_eq hnames ?_
  split at h <;> split at h
  · next ha hb => exact ha.trans hb.symm
  · cases h
  · cases h
  · exact BitVec.eq_of_toNat_eq (Hex.marked_injective 4 (List.singleton_inj.mp h))

/-- Words have letters and digits. -/
theorem isAlphanum_of_mem_words {capabilities : Capabilities} {word : String}
    (h : word ∈ words capabilities) {c : Char} (hc : c ∈ word.toList) : c.isAlphanum = true := by
  have hall : ∀ name ∈ capabilityVocabulary.flags.map (·.name),
      name.toList.all Char.isAlphanum = true := by decide
  have hdigit : ∀ d < 16, (Nat.digitChar d).isAlphanum = true := by decide
  rcases List.mem_append.mp h with hname | hrest
  · exact List.all_eq_true.mp (hall word (mem_names hname)) c hc
  · split at hrest
    · cases hrest
    · rw [List.mem_singleton.mp hrest] at hc
      rcases Hex.mem_marked hc with rfl | ⟨d, hd, rfl⟩
      · decide
      · exact hdigit d hd

/-- Nothing but the empty set has no words. -/
theorem words_ne_nil {capabilities : Capabilities} (h : capabilities.isEmpty = false) :
    words capabilities ≠ [] := by
  intro hwords
  obtain rfl : capabilities = .empty := words_injective hwords
  cases h

/-! ### Texts -/

/-- The blanks of a text are between its words. -/
theorem pieces_capabilityText {capabilities : Capabilities} (h : capabilities.isEmpty = false) :
    pieces ' ' (capabilityText capabilities).toList =
      (words capabilities).map String.toList := by
  have hblank : " ".toList = [' '] := by decide
  rw [capabilityText_eq, if_neg (by rw [h]; exact Bool.false_ne_true), String.toList_intercalate,
    hblank, pieces_intercalate]
  · intro part hpart hin
    obtain ⟨word, hword, rfl⟩ := List.mem_map.mp hpart
    cases isAlphanum_of_mem_words hword hin
  · rw [Ne, List.map_eq_nil_iff]
    exact words_ne_nil h

/-- The empty set is shown as no other set is. -/
theorem capabilityText_ne_nothing {capabilities : Capabilities} (h : capabilities.isEmpty = false) :
    capabilityText capabilities ≠ nothing := by
  intro htext
  have hpieces := pieces_capabilityText h
  rw [htext] at hpieces
  have hcut : pieces ' ' nothing.toList = [nothing.toList] := by decide
  rw [hcut] at hpieces
  obtain ⟨word, hword, hshown⟩ := List.mem_map.mp (hpieces ▸ List.mem_singleton_self _)
  have hin : '<' ∈ word.toList := hshown ▸ by decide
  cases isAlphanum_of_mem_words hword hin

/-- **Every set of capabilities is shown differently.** -/
theorem capabilityText_injective : Function.Injective capabilityText := by
  have hempty : ∀ {capabilities : Capabilities}, capabilities.isEmpty = true →
      capabilityText capabilities = nothing := fun h => if_pos h
  have heq : ∀ {capabilities : Capabilities}, capabilities.isEmpty = true → capabilities = .empty :=
    fun h => congrArg FlagWord.mk (eq_of_beq h)
  intro a b h
  cases ha : a.isEmpty <;> cases hb : b.isEmpty
  · refine words_injective (List.map_injective_iff.mpr (fun _ _ => String.toList_injective) ?_)
    rw [← pieces_capabilityText ha, h, pieces_capabilityText hb]
  · exact absurd (h.trans (hempty hb)) (capabilityText_ne_nothing ha)
  · exact absurd (h.symm.trans (hempty ha)) (capabilityText_ne_nothing hb)
  · rw [heq ha, heq hb]

/-- A text has letters, digits, blanks and the brackets of what is not there. -/
theorem mem_capabilityText {capabilities : Capabilities} {c : Char}
    (h : c ∈ (capabilityText capabilities).toList) :
    c.isAlphanum = true ∨ c = ' ' ∨ c = '<' ∨ c = '>' := by
  rw [capabilityText_eq] at h
  split at h
  · have hchars : nothing.toList = '<' :: ("none".toList ++ ['>']) := by decide
    have hnone : "none".toList.all Char.isAlphanum = true := by decide
    rw [hchars, List.mem_cons, List.mem_append, List.mem_singleton] at h
    rcases h with hopen | hletter | hclose
    · exact .inr (.inr (.inl hopen))
    · exact .inl (List.all_eq_true.mp hnone c hletter)
    · exact .inr (.inr (.inr hclose))
  · have hblank : " ".toList = [' '] := by decide
    rw [String.toList_intercalate, hblank] at h
    obtain rfl | ⟨part, hpart, hc⟩ := mem_of_mem_intercalate h
    · exact .inr (.inl rfl)
    · obtain ⟨word, hword, rfl⟩ := List.mem_map.mp hpart
      exact .inl (isAlphanum_of_mem_words hword hc)

end Info

end TokenConfig
