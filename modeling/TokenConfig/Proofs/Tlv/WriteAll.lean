import Mathlib.Data.List.Forall2
import TokenConfig.Proofs.Tlv.Written

/-!
# Writing many tagged values

Tagged values are written one after another, and one that is refused is passed over. What a buffer
holds is never changed, only added to, so that it is enough to know what is added
(`TokenConfig.Tlv.writeAll_eq`): the bytes of those that are not refused.

Reading does not mind what is added either. A byte string that is encodings one behind the other
stays so when others come behind them, and the values behind a tag that come later are the ones that
count (`TokenConfig.TagMap.exists_decode_append`). So what is read of a buffer after writing are the
values written, and for the other tags what was read before (`TokenConfig.Tlv.decode_writeAll`).
-/

namespace TokenConfig

namespace TagMap

/-- **Reading on**: bytes that are decoded are decoded with others behind them, and these are asked
first. -/
theorem exists_decode_append {front rest : Bytes} {map more : TagMap}
    (hfront : decode front = .ok map) (hrest : decode rest = .ok more) :
    ∃ both, decode (front ++ rest) = .ok both ∧
      ∀ tag, both.get? tag = (more.get? tag).or (map.get? tag) := by
  obtain ⟨encodings, rfl, rfl⟩ := decode_eq_ok_iff.mp hfront
  obtain ⟨others, rfl, rfl⟩ := decode_eq_ok_iff.mp hrest
  refine ⟨ofList ((encodings ++ others).map (·.tlv)), decode_eq_ok_iff.mpr ⟨_, ?_, rfl⟩, ?_⟩
  · exact List.flatMap_append.symm
  · intro tag
    rw [List.map_append, get?_ofList_append]

end TagMap

namespace Tlv

/-- The numbers that are tags: those whose numeral is one. -/
def IsTagNumber (tag : UInt32) : Prop :=
  ∃ numeral, Bytes.IsNumeral numeral tag.toNat ∧ IsTag numeral

/-- There is one numeral, and it is the one that is written. -/
theorem isTagNumber_iff {tag : UInt32} : IsTagNumber tag ↔ IsTag (tagBytes tag) := by
  constructor
  · rintro ⟨numeral, hnumeral, htag⟩
    rwa [(isNumeral_tagBytes tag).unique hnumeral]
  · exact fun htag => ⟨tagBytes tag, isNumeral_tagBytes tag, htag⟩

/-! ### What is refused -/

/-- What becomes of writing a tagged value. -/
def outcome (tlv : Tlv) : Except Error Nat :=
  if tlv.value.length ≤ maxLength then .ok tlv.bytes.length else .error .size

/-- The tagged values that are not refused. -/
def accepted (tlvs : List Tlv) : List Tlv :=
  tlvs.filter (·.value.length ≤ maxLength)

/-- The bytes that an outcome counts. -/
def counted : Except Error Nat → Nat
  | .ok count => count
  | .error _ => 0

theorem outcome_eq_error_iff {tlv : Tlv} {fault : Error} :
    tlv.outcome = .error fault ↔ maxLength < tlv.value.length ∧ fault = .size := by
  unfold outcome
  split
  · next hle => simp [Nat.not_lt.mpr hle]
  · next hlong => simp [Nat.lt_of_not_le hlong, eq_comm]

theorem accepted_append (front rest : List Tlv) :
    accepted (front ++ rest) = accepted front ++ accepted rest :=
  List.filter_append front rest

theorem accepted_cons_of_lt {tlv : Tlv} (h : maxLength < tlv.value.length) (rest : List Tlv) :
    accepted (tlv :: rest) = accepted rest :=
  List.filter_cons_of_neg (by simpa using h)

/-! ### One after another -/

/-- **One more** is added behind the others, or passed over. -/
theorem write_eq (buffer : Bytes) (tlv : Tlv) :
    write buffer tlv = (tlv.outcome, buffer ++ (accepted [tlv]).flatMap bytes) := by
  rw [write, encode, outcome]
  by_cases h : tlv.value.length ≤ maxLength <;> simp [accepted, bytes, h]

/-- **What is added** by writing many: the bytes of those that are not refused. -/
theorem writeAll_eq (buffer : Bytes) (tlvs : List Tlv) :
    writeAll buffer tlvs = (tlvs.map outcome, buffer ++ (accepted tlvs).flatMap bytes) := by
  induction tlvs generalizing buffer with
  | nil => simp [writeAll, accepted]
  | cons tlv tlvs ih =>
    rw [writeAll, write_eq]
    simp only [ih]
    rw [List.append_assoc, ← List.flatMap_append, ← accepted_append, List.singleton_append,
      List.map_cons]

/-- The outcomes count the bytes added. -/
theorem length_flatMap_accepted (tlvs : List Tlv) :
    ((accepted tlvs).flatMap bytes).length = ((tlvs.map outcome).map counted).sum := by
  induction tlvs with
  | nil => rfl
  | cons tlv tlvs ih =>
    rw [List.map_cons, List.map_cons, List.sum_cons, ← ih, accepted, List.filter_cons, outcome]
    by_cases h : tlv.value.length ≤ maxLength <;> simp [accepted, counted, h]

/-- What is decoded of the bytes added. -/
theorem decode_flatMap_accepted {tlvs : List Tlv} (h : ∀ tlv ∈ tlvs, IsTagNumber tlv.tag) :
    TagMap.decode ((accepted tlvs).flatMap bytes) = .ok (TagMap.ofList (accepted tlvs)) := by
  have hwritable : ∀ tlv ∈ accepted tlvs, tlv.Writable := by
    intro tlv hmem
    obtain ⟨htlv, hlength⟩ := List.mem_filter.mp hmem
    exact ⟨isTagNumber_iff.mp (h tlv htlv), of_decide_eq_true hlength⟩
  rw [TagMap.decode, decode?_flatMap_bytes hwritable]

/-- **Writing many tagged values.** Let a buffer be read as some map, and tagged values be written
behind it whose tags can be read. The buffer grows by as many bytes as the outcomes count, and is
read as that map with the values that were not refused put over it, the last one of each tag.
Exactly those longer than `0x00ffffff` bytes are refused, for their size. One that is refused leaves
the buffer as it was, and without it the others would have the same outcomes and lead to the same
buffer. -/
theorem decode_writeAll {buffer final : Bytes} {map : TagMap} {items : List Tlv}
    {outcomes : List (Except Error Nat)} (hread : TagMap.decode buffer = .ok map)
    (htags : ∀ item ∈ items, IsTagNumber item.tag)
    (hwrite : writeAll buffer items = (outcomes, final)) :
    (∃ grown, final = buffer ++ grown ∧ grown.length = (outcomes.map counted).sum) ∧
    (∃ after, TagMap.decode final = .ok after ∧ ∀ tag, after.get? tag =
      (lastGiven (TagMap.valueAt tag) (items.filter (·.value.length ≤ 0x00ffffff))).or
        (map.get? tag)) ∧
    List.Forall₂ (fun item outcome => ∀ fault, outcome = .error fault ↔
      0x00ffffff < item.value.length ∧ fault = .size) items outcomes ∧
    ∀ front item rest, items = front ++ item :: rest → 0x00ffffff < item.value.length →
      (∀ middle, write middle item = (.error .size, middle)) ∧
      outcomes[front.length]? = some (.error .size) ∧
      writeAll buffer (front ++ rest) = (outcomes.eraseIdx front.length, final) := by
  rw [writeAll_eq] at hwrite
  obtain ⟨rfl, rfl⟩ := Prod.mk.inj hwrite
  refine ⟨⟨_, rfl, length_flatMap_accepted items⟩, ?_, ?_, ?_⟩
  · obtain ⟨after, hafter, hget⟩ :=
      TagMap.exists_decode_append hread (decode_flatMap_accepted htags)
    refine ⟨after, hafter, fun tag => ?_⟩
    rw [hget, TagMap.get?_ofList]
    rfl
  · rw [List.forall₂_map_right_iff, List.forall₂_same]
    exact fun item _ fault => outcome_eq_error_iff
  · rintro front item rest rfl hlong
    have hsize : item.outcome = .error .size := outcome_eq_error_iff.mpr ⟨hlong, rfl⟩
    refine ⟨fun middle => ?_, ?_, ?_⟩
    · rw [write_eq, hsize, accepted_cons_of_lt hlong]
      exact congrArg _ (List.append_nil middle)
    · rw [List.map_append, List.getElem?_append_right (by simp)]
      simp [hsize]
    · rw [writeAll_eq, accepted_append, accepted_append, accepted_cons_of_lt hlong]
      simp [List.eraseIdx_append_of_length_le]

/-- A tag of two bytes, a value that is too long, and a tag that is in the buffer already and is
written twice: the last value is the one that is read. -/
theorem decode_writeAll_passes_over :
    ∃ long : Bytes, 0x00ffffff < long.length ∧
      ∃ after, TagMap.decode (writeAll [0x01, 0x01, 0x05, 0x02, 0x00]
          [⟨0x9f01, [7]⟩, ⟨0x01, [8]⟩, ⟨0x02, long⟩, ⟨0x01, []⟩]).2 = .ok after ∧
        after.get? 0x9f01 = some [7] ∧ after.get? 0x01 = some [] ∧ after.get? 0x02 = some [] := by
  obtain ⟨long, hlength⟩ : ∃ long : Bytes, long.length = 0x1000000 :=
    ⟨List.replicate 0x1000000 0, List.length_replicate⟩
  have hone : IsTagNumber 0x01 := isTagNumber_iff.mpr (.short 0x01 (by decide))
  have htwo : IsTagNumber 0x02 := isTagNumber_iff.mpr (.short 0x02 (by decide))
  have hpair : IsTagNumber 0x9f01 :=
    isTagNumber_iff.mpr (.long 0x9f [] 0x01 (by decide) (by simp) (by decide) (by decide))
  have hbefore : ∀ item ∈ ([⟨0x01, [5]⟩, ⟨0x02, []⟩] : List Tlv), IsTagNumber item.tag := by
    simp [hone, htwo]
  have hread : TagMap.decode [0x01, 0x01, 0x05, 0x02, 0x00] =
      .ok (TagMap.ofList [⟨0x01, [5]⟩, ⟨0x02, []⟩]) := decode_flatMap_accepted hbefore
  have htags : ∀ item ∈ ([⟨0x9f01, [7]⟩, ⟨0x01, [8]⟩, ⟨0x02, long⟩, ⟨0x01, []⟩] : List Tlv),
      IsTagNumber item.tag := by
    simp [hone, htwo, hpair]
  obtain ⟨-, ⟨after, hafter, hget⟩, -⟩ := decode_writeAll hread htags Prod.mk.eta.symm
  refine ⟨long, by omega, after, hafter, ?_, ?_, ?_⟩ <;>
    simp [hget, TagMap.get?_ofList, lastGiven, TagMap.valueAt, hlength]

end Tlv

end TokenConfig
