import Mathlib.Data.List.Nodup
import TokenConfig.Proofs.Device.Response

/-!
# What a response comes down to

Of the tagged values of a response only few have a say in what is read. A tag that nobody asks for
has none, and of several values behind one tag only the last one has. So two responses are read
alike as soon as each tag that is asked for has the same last value in both, or is in neither
(`TokenConfig.DeviceInfo.SameLast`), and the order of the tagged values, those that are replaced
later, other tags and the forms of the lengths are of no account.

* The responses that are read are the `TokenConfig.DeviceInfo.respond` of some encodings, and of no
  others, so it can be asked of a response which values it has last.
* `TokenConfig.DeviceInfo.ofTags_congr` says that eleven look-ups are all that is asked of a map.
* Changes that keep the last values are a change of order among different tags, encodings with other
  tags, and other forms of the lengths (`TokenConfig.DeviceInfo.sameLast_of_perm`,
  `TokenConfig.DeviceInfo.sameLast_of_filter_eq`, `TokenConfig.DeviceInfo.sameLast_of_tlvs_eq`).

`TokenConfig.DeviceInfo.parse_depends_on_last` puts this together.
-/

namespace TokenConfig

namespace DeviceInfo

open Tlv (Encoding)

variable {a b : List Encoding} {values others : TagMap} {fallback : Version}

/-! ### Last values -/

/-- The tags that are asked for. -/
def askedTags : List UInt32 :=
  [0x01, 0x02, 0x03, 0x04, 0x05, 0x06, 0x07, 0x08, 0x0a, 0x0d, 0x0e]

/-- The value that a tag has last in a sequence of encodings. -/
def lastValue (tag : UInt32) (encodings : List Encoding) : Option Bytes :=
  lastGiven (fun encoding => if encoding.tag = tag then some encoding.value else none) encodings

/-- Whether the tags that are asked for have the same last values. -/
def SameLast (a b : List Encoding) : Prop :=
  ∀ tag ∈ askedTags, lastValue tag a = lastValue tag b

theorem lastValue_eq (tag : UInt32) (encodings : List Encoding) :
    lastValue tag encodings = lastGiven (TagMap.valueAt tag) (encodings.map (·.tlv)) := by
  rw [lastGiven_map]
  rfl

theorem get?_ofList_encodings (encodings : List Encoding) (tag : UInt32) :
    (TagMap.ofList (encodings.map (·.tlv))).get? tag = lastValue tag encodings := by
  rw [TagMap.get?_ofList, lastValue_eq]

/-! ### Changes that keep the last values -/

/-- **The order of different tags is of no account.** -/
theorem sameLast_of_perm (h : a.Perm b) (hdifferent : (a.map (·.tag)).Nodup) : SameLast a b := by
  intro tag _
  unfold lastValue
  induction h with
  | nil => rfl
  | cons encoding _ ih =>
    rw [lastGiven_cons, lastGiven_cons, ih (List.nodup_cons.mp hdifferent).2]
  | swap first second rest =>
    have hne : second.tag ≠ first.tag := fun hsame =>
      (List.nodup_cons.mp hdifferent).1 (List.mem_cons.mpr (Or.inl hsame))
    simp only [lastGiven_cons, Option.or_assoc]
    -- of two encodings with different tags at most one gives a value to this tag
    by_cases hsecond : second.tag = tag
    · rw [if_neg (fun hfirst => hne (hsecond.trans hfirst.symm)), Option.or_none, Option.none_or]
    · rw [if_neg hsecond, Option.or_none, Option.none_or]
  | trans hfirst _ ihfirst ihrest =>
    exact (ihfirst hdifferent).trans (ihrest ((hfirst.map _).nodup_iff.mp hdifferent))

/-- **Encodings with other tags are of no account**, wherever they are. -/
theorem sameLast_of_filter_eq
    (h : a.filter (·.tag ∈ askedTags) = b.filter (·.tag ∈ askedTags)) : SameLast a b := by
  intro tag htag
  have hasked : ∀ encodings : List Encoding,
      lastValue tag (encodings.filter (·.tag ∈ askedTags)) = lastValue tag encodings := by
    intro encodings
    rw [lastValue, lastValue, lastGiven, List.filterMap_filter, lastGiven]
    congr 1
    refine List.filterMap_congr fun encoding _ => ?_
    by_cases hsame : encoding.tag = tag
    · simp [hsame, htag]
    · simp [hsame]
  rw [← hasked a, h, hasked]

/-- **The forms of the lengths are of no account.** -/
theorem sameLast_of_tlvs_eq (h : a.map (·.tlv) = b.map (·.tlv)) : SameLast a b := by
  intro tag _
  rw [lastValue_eq, h, lastValue_eq]

/-! ### What is asked of a map -/

/-- **Nothing else is asked**: maps with the same values of these tags say the same. -/
theorem ofTags_congr (h : ∀ tag ∈ askedTags, values.get? tag = others.get? tag) :
    (ofTags values fallback).value = (ofTags others fallback).value := by
  have hasked : ∀ tag : Tag, tag.code ∈ askedTags → values.get? tag.code = others.get? tag.code :=
    fun tag => h tag.code
  have hversion : versionOf values fallback = versionOf others fallback := by
    rw [versionOf, versionOf, hasked .firmwareVersion (by decide)]
  have hword : ∀ tag : Tag, tag.code ∈ askedTags → word values tag = word others tag := by
    intro tag htag
    rw [word, word, TagMap.word, TagMap.word, hasked tag htag]
  have hcapabilities : ∀ tag : Tag, tag.code ∈ askedTags →
      capabilities? values tag = capabilities? others tag := by
    intro tag htag
    rw [capabilities?, capabilities?, hasked tag htag]
  have hserial : serialOf values = serialOf others := by
    rw [serialOf, serialOf, hword .serial (by decide)]
  simp (disch := decide) only [ofTags, Logged.value_bind, Logged.value_pure, hversion, hserial,
    hword, hcapabilities]

/-! ### Responses -/

/-- The response with the bytes of encodings behind the byte that counts them. -/
def respond (encodings : List Encoding) : Bytes :=
  (Encoding.concat encodings).length.toUInt8 :: Encoding.concat encodings

theorem respond_injective : Function.Injective respond := fun _ _ h =>
  Encoding.concat_injective (List.cons.inj h).2

/-- What is read of a response that is not too long. -/
theorem parse_respond {encodings : List Encoding} (h : (Encoding.concat encodings).length ≤ 255)
    (fallback : Version) :
    parse (respond encodings) fallback =
      .ok (ofTags (TagMap.ofList (encodings.map (·.tlv))) fallback) :=
  parse_eq_ok_iff.mpr ⟨_, _, _, rfl, (UInt8.toNat_ofNat_of_lt' (Nat.lt_succ_of_le h)).symm,
    TagMap.decode_eq_ok_iff.mpr ⟨encodings, rfl, rfl⟩, rfl⟩

/-- **The responses that are read** count what is behind the count, and there are encodings. -/
theorem exists_parse_iff {response : Bytes} :
    (∃ read, parse response fallback = .ok read) ↔
      ∃ encodings, response = respond encodings ∧ (Encoding.concat encodings).length ≤ 255 := by
  constructor
  · rintro ⟨read, hread⟩
    obtain ⟨count, payload, values, rfl, hcount, hdecode, -⟩ := parse_eq_ok_iff.mp hread
    obtain ⟨encodings, rfl, -⟩ := TagMap.decode_eq_ok_iff.mp hdecode
    refine ⟨encodings, ?_, hcount ▸ Nat.le_of_lt_succ count.toNat_lt⟩
    rw [respond, hcount, Nat.toUInt8_eq, UInt8.ofNat_toNat]
  · rintro ⟨encodings, rfl, hlength⟩
    exact ⟨_, parse_respond hlength fallback⟩

/-- What is read of any response is what its encodings are read as. -/
theorem exists_eq_ofTags_of_parse {response : Bytes} {read : Logged DeviceInfo}
    (h : parse response fallback = .ok read) :
    ∃ encodings, response = respond encodings ∧
      read = ofTags (TagMap.ofList (encodings.map (·.tlv))) fallback := by
  obtain ⟨encodings, rfl, hlength⟩ := exists_parse_iff.mp ⟨read, h⟩
  exact ⟨encodings, rfl, Except.ok.inj (h.symm.trans (parse_respond hlength fallback))⟩

/-- What is read has not been cut by the count. -/
theorem length_le_of_parse_respond {encodings : List Encoding} {read : Logged DeviceInfo}
    (h : parse (respond encodings) fallback = .ok read) :
    (Encoding.concat encodings).length ≤ 255 := by
  obtain ⟨others, hsame, hlength⟩ := exists_parse_iff.mp ⟨read, h⟩
  rwa [respond_injective hsame]

/-- Whether two responses are both read, and the same information is read of them. -/
def ReadAlike (fallback : Version) (response other : Bytes) : Prop :=
  ∃ read again, parse response fallback = .ok read ∧ parse other fallback = .ok again ∧
    read.value = again.value

/-- **The last values decide.** -/
theorem readAlike_of_sameLast (ha : (Encoding.concat a).length ≤ 255)
    (hb : (Encoding.concat b).length ≤ 255) (h : SameLast a b) :
    ReadAlike fallback (respond a) (respond b) := by
  refine ⟨_, _, parse_respond ha fallback, parse_respond hb fallback, ofTags_congr ?_⟩
  intro tag htag
  rw [get?_ofList_encodings, get?_ofList_encodings, h tag htag]

/-- **What is read depends on the last values.** The responses that are read are encodings behind
the byte that counts their bytes, of which there are at most 255, and a response has one sequence of
encodings only. The same information is read of two of them if each of eleven tags has the same last
value in both or is in neither. In particular it does not matter in which order encodings with
different tags come, whether there are encodings with other tags and where, and which forms the
lengths have. -/
theorem parse_depends_on_last (fallback : Version) :
    (∀ response, (∃ read, parse response fallback = .ok read) ↔
      ∃ encodings, response = respond encodings ∧ (Encoding.concat encodings).length ≤ 255) ∧
    (∀ a b, respond a = respond b → a = b) ∧
    (∀ a b read again, parse (respond a) fallback = .ok read →
      parse (respond b) fallback = .ok again →
      (∀ tag ∈ [0x01, 0x02, 0x03, 0x04, 0x05, 0x06, 0x07, 0x08, 0x0a, 0x0d, 0x0e],
        lastValue tag a = lastValue tag b) → read.value = again.value) ∧
    (∀ a b, (Encoding.concat a).length ≤ 255 → a.Perm b → (a.map (·.tag)).Nodup →
      ReadAlike fallback (respond a) (respond b)) ∧
    (∀ a b, (Encoding.concat a).length ≤ 255 → (Encoding.concat b).length ≤ 255 →
      a.filter (·.tag ∈ askedTags) = b.filter (·.tag ∈ askedTags) →
      ReadAlike fallback (respond a) (respond b)) ∧
    ∀ a b, (Encoding.concat a).length ≤ 255 → (Encoding.concat b).length ≤ 255 →
      a.map (·.tlv) = b.map (·.tlv) → ReadAlike fallback (respond a) (respond b) := by
  refine ⟨fun response => exists_parse_iff, fun a b h => respond_injective h, ?_, ?_, ?_, ?_⟩
  · intro a b read again hread hagain hsame
    obtain ⟨_, _, hfirst, hsecond, hvalue⟩ := readAlike_of_sameLast
      (length_le_of_parse_respond hread) (length_le_of_parse_respond hagain) hsame
    obtain rfl := Except.ok.inj (hread.symm.trans hfirst)
    obtain rfl := Except.ok.inj (hagain.symm.trans hsecond)
    exact hvalue
  · intro a b ha hperm hdifferent
    have hb : (Encoding.concat b).length ≤ 255 :=
      (hperm.flatMap_right Encoding.bytes).length_eq ▸ ha
    exact readAlike_of_sameLast ha hb (sameLast_of_perm hperm hdifferent)
  · intro a b ha hb hfilter
    exact readAlike_of_sameLast ha hb (sameLast_of_filter_eq hfilter)
  · intro a b ha hb htlvs
    exact readAlike_of_sameLast ha hb (sameLast_of_tlvs_eq htlvs)

/-- A serial number that is given twice, and the same one behind an unknown tag with its length in
two bytes, while other tags come in another order. -/
theorem parse_depends_on_last_of_reordered :
    ∃ read again,
      parse [0x0c, 0x02, 0x01, 0x05, 0x05, 0x03, 5, 4, 3, 0x02, 0x02, 0x01, 0x00] ⟨3, 0, 0⟩ =
        .ok read ∧
      parse [0x10, 0x9f, 0x20, 0x01, 0xaa, 0x02, 0x81, 0x02, 0x01, 0x00, 0x05, 0x03, 5, 4, 3, 0x1e,
        0x00] ⟨3, 0, 0⟩ = .ok again ∧
      read.value = again.value ∧ read.events ≠ again.events ∧
      read.value.serial = some ⟨256⟩ := by
  let first : List Encoding := [
    ⟨[0x02], [0x01], [0x05], .short _ (by decide), .short 1 (by decide)⟩,
    ⟨[0x05], [0x03], [5, 4, 3], .short _ (by decide), .short 3 (by decide)⟩,
    ⟨[0x02], [0x02], [0x01, 0x00], .short _ (by decide), .short 2 (by decide)⟩]
  let second : List Encoding := [
    ⟨[0x9f, 0x20], [0x01], [0xaa], .long 0x9f [] 0x20 (by decide) (by simp) (by decide) (by decide),
      .short 1 (by decide)⟩,
    ⟨[0x02], [0x81, 0x02], [0x01, 0x00], .short _ (by decide),
      .long 0x81 [0x02] (by decide) (by decide) (by decide)⟩,
    ⟨[0x05], [0x03], [5, 4, 3], .short _ (by decide), .short 3 (by decide)⟩,
    ⟨[0x1e], [0x00], [], .short _ (by decide), .short 0 (by decide)⟩]
  have hread := parse_respond (show (Encoding.concat first).length ≤ 255 by decide) ⟨3, 0, 0⟩
  have hagain := parse_respond (show (Encoding.concat second).length ≤ 255 by decide) ⟨3, 0, 0⟩
  have hsame : askedTags.all (fun tag => lastValue tag first == lastValue tag second) = true := by
    decide
  obtain ⟨-, -, hlast, -⟩ := parse_depends_on_last ⟨3, 0, 0⟩
  refine ⟨_, _, hread, hagain, hlast _ _ _ _ hread hagain fun tag htag => ?_, by decide +kernel,
    by decide +kernel⟩
  exact eq_of_beq (List.all_eq_true.mp hsame tag htag)

end DeviceInfo

end TokenConfig
