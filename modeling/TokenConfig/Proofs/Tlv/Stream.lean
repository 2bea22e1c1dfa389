import TokenConfig.Proofs.LastGiven
import TokenConfig.Proofs.Tlv.Grammar
import TokenConfig.Tlv.TagMap

/-!
# Sequences of tagged values

A byte string is decoded by reading one tagged value after another. Reading stops without a word
where no encoding begins (`TokenConfig.Tlv.parseMany`); it is the end of the bytes that makes the
difference between an answer and an error (`TokenConfig.Tlv.decode?_eq_parseMany`).

* What is decoded are the byte strings that are encodings one behind the other
  (`TokenConfig.Tlv.decode?_eq_some_iff`), and the encodings can be told from the bytes
  (`TokenConfig.Tlv.Encoding.concat_injective`).
* The map of tagged values has the last value of each tag (`TokenConfig.TagMap.get?_ofList`).

Both together say what is decoded to which map (`TokenConfig.TagMap.decode_iff`).
-/

namespace TokenConfig

namespace Tlv

/-! ### Encodings one behind the other -/

namespace Encoding

/-- The bytes of encodings one behind the other. -/
def concat (encodings : List Encoding) : Bytes :=
  encodings.flatMap bytes

theorem concat_cons (encoding : Encoding) (encodings : List Encoding) :
    concat (encoding :: encodings) = encoding.bytes ++ concat encodings := rfl

theorem concat_cons_ne_nil (encoding : Encoding) (encodings : List Encoding) :
    concat (encoding :: encodings) ≠ [] := by
  have htwo := encoding.two_le_length
  intro h
  rw [concat_cons] at h
  rw [(List.append_eq_nil_iff.mp h).1] at htwo
  exact absurd htwo (by decide)

/-- **The encodings can be told from the bytes.** -/
theorem concat_injective : Function.Injective concat := by
  intro a b h
  induction a generalizing b with
  | nil =>
    cases b with
    | nil => rfl
    | cons first b => exact absurd h.symm (concat_cons_ne_nil first b)
  | cons head a ih =>
    cases b with
    | nil => exact absurd h (concat_cons_ne_nil head a)
    | cons first b =>
      obtain ⟨rfl, hrest⟩ := append_inj h
      rw [ih hrest]

end Encoding

/-! ### Reading as long as there is something to read -/

/-- The tagged values at the front of a byte string, as many as there are, and the bytes where
reading stops. -/
def parseMany (bytes : Bytes) : List Tlv × Bytes :=
  match _step : parse? bytes with
  | none => ([], bytes)
  | some (tlv, rest) => (tlv :: (parseMany rest).1, (parseMany rest).2)
termination_by bytes.length
decreasing_by all_goals exact length_lt_of_parse? _step

theorem parseMany_of_none {bytes : Bytes} (h : parse? bytes = none) :
    parseMany bytes = ([], bytes) := by
  rw [parseMany]
  split
  · rfl
  · next hsome =>
    rw [h] at hsome
    cases hsome

theorem parseMany_of_some {bytes rest : Bytes} {tlv : Tlv} (h : parse? bytes = some (tlv, rest)) :
    parseMany bytes = (tlv :: (parseMany rest).1, (parseMany rest).2) := by
  rw [parseMany]
  split
  · next hnone =>
    rw [h] at hnone
    cases hnone
  · next hsome =>
    rw [h] at hsome
    cases hsome
    rfl

theorem parse?_nil : parse? [] = none := rfl

/-- Every round of reading takes two bytes or more. -/
theorem length_add_two_le_of_parse? {tlv : Tlv} {bytes rest : Bytes}
    (h : parse? bytes = some (tlv, rest)) : rest.length + 2 ≤ bytes.length := by
  obtain ⟨encoding, rfl, -⟩ := parse?_eq_some_iff.mp h
  have htwo := encoding.two_le_length
  rw [List.length_append]
  omega

/-- Reading goes through encodings and stops where none begins. -/
theorem parseMany_concat_append (encodings : List Encoding) {rest : Bytes}
    (h : parse? rest = none) :
    parseMany (Encoding.concat encodings ++ rest) = (encodings.map (·.tlv), rest) := by
  induction encodings with
  | nil => exact parseMany_of_none h
  | cons encoding encodings ih =>
    rw [Encoding.concat_cons, List.append_assoc, parseMany_of_some (encoding.parse?_append _), ih]
    rfl

/-- What was read are encodings, and none begins where reading stopped. -/
theorem exists_concat_of_parseMany (bytes : Bytes) :
    ∃ encodings, bytes = Encoding.concat encodings ++ (parseMany bytes).2 ∧
      (parseMany bytes).1 = encodings.map (·.tlv) ∧ parse? (parseMany bytes).2 = none := by
  fun_induction parseMany bytes with
  | case1 bytes hnone => exact ⟨[], rfl, rfl, hnone⟩
  | case2 bytes tlv rest hsome ih =>
    obtain ⟨encodings, hbytes, hread, hstop⟩ := ih
    obtain ⟨encoding, rfl, rfl⟩ := parse?_eq_some_iff.mp hsome
    refine ⟨encoding :: encodings, ?_, by rw [hread]; rfl, hstop⟩
    rw [Encoding.concat_cons, List.append_assoc, ← hbytes]

/-- **Reading must come to the end**: a byte string is decoded if reading as long as possible leaves
nothing. -/
theorem decode?_eq_parseMany (bytes : Bytes) :
    decode? bytes = if (parseMany bytes).2 = [] then some (parseMany bytes).1 else none := by
  -- what was read before is kept in reverse, and has no say in where reading stops
  have hfrom : ∀ done, decodeFrom? done bytes =
      if (parseMany bytes).2 = [] then some (done.reverse ++ (parseMany bytes).1) else none := by
    intro done
    fun_induction decodeFrom? done bytes with
    | case1 done bytes hempty =>
      obtain rfl := List.isEmpty_iff.mp hempty
      simp [parseMany_of_none parse?_nil]
    | case2 done bytes hempty hnone =>
      rw [parseMany_of_none hnone, if_neg (by simpa using hempty)]
    | case3 done bytes hempty tlv rest hsome ih =>
      rw [parseMany_of_some hsome, ih, List.reverse_cons, List.append_assoc]
      rfl
  exact hfrom []

/-- **What is decoded**: encodings one behind the other, and nothing else. -/
theorem decode?_eq_some_iff {bytes : Bytes} {tlvs : List Tlv} :
    decode? bytes = some tlvs ↔
      ∃ encodings, bytes = Encoding.concat encodings ∧ encodings.map (·.tlv) = tlvs := by
  rw [decode?_eq_parseMany]
  constructor
  · intro h
    obtain ⟨encodings, hbytes, hread, -⟩ := exists_concat_of_parseMany bytes
    split at h
    · next hend =>
      rw [hend, List.append_nil] at hbytes
      exact ⟨encodings, hbytes, hread.symm.trans (Option.some.inj h)⟩
    · cases h
  · rintro ⟨encodings, rfl, rfl⟩
    have hread := parseMany_concat_append encodings parse?_nil
    rw [List.append_nil] at hread
    rw [hread, if_pos rfl]

end Tlv

namespace TagMap

/-! ### The map of a sequence -/

/-- The value that a tagged value gives to a tag. -/
def valueAt (tag : UInt32) (tlv : Tlv) : Option Bytes :=
  if tlv.tag = tag then some tlv.value else none

/-- **A map has the last value of each tag.** -/
theorem get?_ofList (tlvs : List Tlv) (tag : UInt32) :
    (ofList tlvs).get? tag = lastGiven (valueAt tag) tlvs := by
  induction tlvs using List.reverseRecOn with
  | nil => rfl
  | append_singleton tlvs tlv ih =>
    have hlast : ofList (tlvs ++ [tlv]) = (ofList tlvs).insert tlv.tag tlv.value :=
      List.foldl_append
    rw [hlast, get?_insert, lastGiven_append, lastGiven_singleton, ih, valueAt]
    by_cases h : tlv.tag = tag
    · rw [if_pos h.symm, if_pos h, Option.some_or]
    · rw [if_neg (Ne.symm h), if_neg h, Option.none_or]

/-- Of two sequences one behind the other the second one is asked first. -/
theorem get?_ofList_append (front rest : List Tlv) (tag : UInt32) :
    (ofList (front ++ rest)).get? tag = ((ofList rest).get? tag).or ((ofList front).get? tag) := by
  rw [get?_ofList, get?_ofList, get?_ofList, lastGiven_append]

theorem get?_ofList_eq_none_iff {tlvs : List Tlv} {tag : UInt32} :
    (ofList tlvs).get? tag = none ↔ ∀ tlv ∈ tlvs, tlv.tag ≠ tag := by
  rw [get?_ofList, lastGiven_eq_none_iff]
  simp [valueAt]

theorem mem_tags_iff {map : TagMap} {tag : UInt32} : tag ∈ map.tags ↔ map.get? tag ≠ none := by
  rw [tags, List.mem_map, Option.ne_none_iff_exists']
  constructor
  · rintro ⟨⟨tag, value⟩, hentry, rfl⟩
    exact ⟨value, get?_eq_some_iff.mpr hentry⟩
  · rintro ⟨value, hvalue⟩
    exact ⟨(tag, value), get?_eq_some_iff.mp hvalue, rfl⟩

theorem decode_eq_ok_iff {bytes : Bytes} {map : TagMap} :
    decode bytes = .ok map ↔ ∃ encodings,
      bytes = Tlv.Encoding.concat encodings ∧ ofList (encodings.map (·.tlv)) = map := by
  rw [decode]
  constructor
  · intro h
    split at h
    · next tlvs hread =>
      obtain ⟨encodings, hbytes, rfl⟩ := Tlv.decode?_eq_some_iff.mp hread
      exact ⟨encodings, hbytes, Except.ok.inj h⟩
    · cases h
  · rintro ⟨encodings, hbytes, rfl⟩
    rw [Tlv.decode?_eq_some_iff.mpr ⟨encodings, hbytes, rfl⟩]

/-- There is one way to refuse bytes. -/
theorem decode_eq_error_iff {bytes : Bytes} {fault : Error} :
    decode bytes = .error fault ↔
      fault = .malformed .notTagged ∧ ∀ encodings, bytes ≠ Tlv.Encoding.concat encodings := by
  rw [decode]
  constructor
  · intro h
    split at h
    · cases h
    · next hread =>
      refine ⟨(Except.error.inj h).symm, fun encodings hbytes => ?_⟩
      rw [Tlv.decode?_eq_some_iff.mpr ⟨encodings, hbytes, rfl⟩] at hread
      cases hread
  · rintro ⟨rfl, hnone⟩
    split
    · next tlvs hread =>
      obtain ⟨encodings, hbytes, -⟩ := Tlv.decode?_eq_some_iff.mp hread
      exact absurd hbytes (hnone encodings)
    · rfl

/-- **What is decoded, and to which map.** Bytes are decoded if they are encodings one behind the
other. These encodings are the only ones they are made of, their tags keep every bit, and the map
has exactly these tags, each with its last value. Other bytes are refused with the one error there
is for them: reading stops before their end. It stops in any case, since each round takes at least
two bytes. -/
theorem decode_iff (bytes : Bytes) :
    (∀ map, decode bytes = .ok map ↔
      ∃ encodings, bytes = Tlv.Encoding.concat encodings ∧
        (∀ encoding ∈ encodings, encoding.tag.toNat = encoding.tagBytes.toNat) ∧
        (∀ tag, tag ∈ map.tags ↔ ∃ encoding ∈ encodings, encoding.tag = tag) ∧
        ∀ tag, map.get? tag = lastGiven
          (fun encoding => if encoding.tag = tag then some encoding.value else none) encodings) ∧
    (∀ encodings others, bytes = Tlv.Encoding.concat encodings →
      bytes = Tlv.Encoding.concat others → encodings = others) ∧
    (∀ fault, decode bytes = .error fault ↔
      fault = .malformed .notTagged ∧ ∀ encodings, bytes ≠ Tlv.Encoding.concat encodings) ∧
    Malformation.notTagged.message = "invalid TLV encoding" ∧
    ((∃ map, decode bytes = .ok map) ↔ (Tlv.parseMany bytes).2 = []) ∧
    ∀ tlv rest, Tlv.parse? bytes = some (tlv, rest) → rest.length + 2 ≤ bytes.length := by
  have hget : ∀ (encodings : List Tlv.Encoding) tag,
      (ofList (encodings.map (·.tlv))).get? tag = lastGiven
        (fun encoding => if encoding.tag = tag then some encoding.value else none) encodings := by
    intro encodings tag
    rw [get?_ofList, lastGiven_map]
    rfl
  refine ⟨fun map => ?_, ?_, fun fault => decode_eq_error_iff, rfl, ?_,
    fun tlv rest => Tlv.length_add_two_le_of_parse?⟩
  · rw [decode_eq_ok_iff]
    constructor
    · rintro ⟨encodings, hbytes, rfl⟩
      refine ⟨encodings, hbytes, fun encoding _ => encoding.toNat_tag, fun tag => ?_,
        hget encodings⟩
      rw [mem_tags_iff, hget, Ne, lastGiven_eq_none_iff]
      simp
    · -- a map is determined by what it answers, so the last values make it the decoded one
      rintro ⟨encodings, hbytes, -, -, hmap⟩
      exact ⟨encodings, hbytes, ext_get? fun tag => (hget encodings tag).trans (hmap tag).symm⟩
  · rintro encodings others rfl h
    exact Tlv.Encoding.concat_injective h
  · have hread := Tlv.decode?_eq_parseMany bytes
    rw [decode, hread]
    split <;> simp_all

end TagMap

end TokenConfig
