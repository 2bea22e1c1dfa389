import TokenConfig.Device.Config
import TokenConfig.Proofs.Tlv.Written

/-!
# The payload of a configuration

What is sent to change a configuration are tagged values, one for each part that is there, in a
fixed order. Four parts may be refused, for their length or because they do not fit the bytes that
they get.

* `TokenConfig.Guarded` says of an operation that it gives a certain value under a certain
  condition, and refuses its argument otherwise. Done one after another, operations of this kind
  make one of the same kind (`TokenConfig.Guarded.bind`), so the conditions of the parts add up to
  that of the whole (`TokenConfig.DeviceConfig.guarded_encode`).
* `TokenConfig.DeviceConfig.sent` is what is sent behind each tag. What is decoded is the same again
  (`TokenConfig.TagMap.get?_ofList_tlvs`).
* `TokenConfig.DeviceConfig.Sends` says it of a decoded payload, tag by tag, with the numbers of the
  tags and the sizes of the values; it leaves no part of the configuration open
  (`TokenConfig.DeviceConfig.Sends.unique`).

So a payload is refused for the four reasons there are, and says all about what it was made of
(`TokenConfig.DeviceConfig.encode_characterization`).
-/

namespace TokenConfig

/-! ### Operations that refuse their argument -/

/-- An operation gives a value under a condition, and refuses its argument otherwise. -/
structure Guarded {α : Type} (operation : Except Error α) (condition : Prop) (value : α) :
    Prop where
  /-- The condition is enough. -/
  ok : condition → operation = .ok value
  /-- Without it there is one error. -/
  error : ¬ condition → operation = .error .argument

namespace Guarded

variable {α β : Type}

theorem ite {condition : Prop} [Decidable condition] (value : α) :
    Guarded (if condition then .ok value else .error .argument) condition value :=
  ⟨fun h => if_pos h, fun h => if_neg h⟩

theorem pure (value : α) : Guarded (.ok value) True value :=
  ⟨fun _ => rfl, fun h => absurd trivial h⟩

/-- **One operation after another** needs the conditions of both. -/
theorem bind {first : Except Error α} {next : α → Except Error β} {p q : Prop} {a : α} {b : β}
    (hfirst : Guarded first p a) (hnext : Guarded (next a) q b) :
    Guarded (first >>= next) (p ∧ q) b := by
  refine ⟨fun ⟨hp, hq⟩ => ?_, fun hnot => ?_⟩
  · rw [hfirst.ok hp]
    exact hnext.ok hq
  · by_cases hp : p
    · rw [hfirst.ok hp]
      exact hnext.error fun hq => hnot ⟨hp, hq⟩
    · rw [hfirst.error hp]
      rfl

theorem congr {operation : Except Error α} {p q : Prop} {a b : α} (h : Guarded operation p a)
    (hpq : p ↔ q) (hab : a = b) : Guarded operation q b := by
  subst hab
  exact ⟨fun hq => h.ok (hpq.mpr hq), fun hq => h.error (hpq.not.mpr hq)⟩

theorem eq_ok_iff {operation : Except Error α} {p : Prop} {a b : α} (h : Guarded operation p a) :
    operation = .ok b ↔ p ∧ a = b := by
  by_cases hp : p
  · simp [h.ok hp, hp]
  · simp [h.error hp, hp]

theorem eq_error_iff {operation : Except Error α} {p : Prop} {a : α} {fault : Error}
    (h : Guarded operation p a) : operation = .error fault ↔ fault = .argument ∧ ¬ p := by
  by_cases hp : p
  · simp [h.ok hp, hp]
  · simp [h.error hp, hp, eq_comm]

end Guarded

/-! ### Tagged values of some tags -/

namespace Tag

/-- The tagged values of the tags in a list that have a value. -/
def tlvs (value : Tag → Option Bytes) (tags : List Tag) : List Tlv :=
  tags.filterMap fun tag => (value tag).map (Tlv.mk tag.code)

theorem length_tagBytes_code (tag : Tag) : (Tlv.tagBytes tag.code).length = 1 := by
  cases tag <;> rfl

theorem isTag_tagBytes_code (tag : Tag) : Tlv.IsTag (Tlv.tagBytes tag.code) := by
  cases tag <;> exact .short _ (by decide)

variable {value : Tag → Option Bytes} {tags : List Tag}

theorem mem_tlvs_iff {tlv : Tlv} :
    tlv ∈ tlvs value tags ↔ ∃ tag ∈ tags, ∃ bytes ∈ value tag, ⟨tag.code, bytes⟩ = tlv := by
  simp only [tlvs, List.mem_filterMap, Option.map_eq_some_iff, Option.mem_def]

/-- The tags that are written are some of those in the list, and in the order of the list. -/
theorem tags_tlvs_sublist (value : Tag → Option Bytes) (tags : List Tag) :
    ((tlvs value tags).map (·.tag)).Sublist (tags.map code) := by
  induction tags with
  | nil => exact .slnil
  | cons tag tags ih =>
    rw [tlvs, List.filterMap_cons]
    cases value tag with
    | none => exact ih.cons _
    | some bytes => exact ih.cons_cons _

/-- Short values take two more bytes each than they have. -/
theorem length_flatMap_bytes_tlvs_le {size : Tag → Nat} (hsize : ∀ tag, size tag ≤ 0x7f)
    (h : ∀ tag, ∀ bytes ∈ value tag, bytes.length ≤ size tag) :
    ((tlvs value tags).flatMap Tlv.bytes).length ≤ (tags.map fun tag => 2 + size tag).sum := by
  induction tags with
  | nil => exact Nat.le_refl 0
  | cons tag tags ih =>
    rw [tlvs, List.filterMap_cons, List.map_cons, List.sum_cons]
    cases hvalue : value tag with
    | none => exact Nat.le_add_left_of_le ih
    | some bytes =>
      have hbytes := h tag bytes hvalue
      have hlength : (Tlv.bytes ⟨tag.code, bytes⟩).length = 2 + bytes.length := by
        rw [Tlv.bytes, List.length_append, List.length_append, length_tagBytes_code,
          Tlv.lengthBytes, if_pos (hbytes.trans (hsize tag)), List.length_singleton]
      rw [Option.map_some, List.flatMap_cons, List.length_append, hlength]
      exact Nat.add_le_add (Nat.add_le_add_left hbytes 2) ih

end Tag

namespace TagMap

variable {value : Tag → Option Bytes} {tags : List Tag}

/-- **What was written for a tag is found under it.** -/
theorem get?_ofList_tlvs (value : Tag → Option Bytes) (tags : List Tag) (tag : Tag) :
    (ofList (Tag.tlvs value tags)).get? tag.code = if tag ∈ tags then value tag else none := by
  -- the numbers of different tags differ, so of the tags in the list one alone matters
  have hgiven : ∀ item : Tag, ((value item).map (Tlv.mk item.code)).bind (valueAt tag.code) =
      if item = tag then value item else none := by
    intro item
    by_cases hitem : item = tag
    · subst hitem
      rw [if_pos rfl]
      cases value item with
      | none => rfl
      | some bytes => exact if_pos rfl
    · rw [if_neg hitem]
      cases value item with
      | none => rfl
      | some bytes => exact if_neg fun hcode => hitem (Tag.code_injective hcode)
  rw [get?_ofList, Tag.tlvs, lastGiven_filterMap]
  simp only [hgiven]
  exact lastGiven_ite_eq value tag tags

end TagMap

namespace DeviceConfig

variable {config : DeviceConfig} {request : Request}

/-! ### What is sent -/

/-- What is sent behind a tag, if the tag is sent. -/
def sent (config : DeviceConfig) (request : Request) : Tag → Option Bytes
  | .reboot => if request.reboot then some [] else none
  | .unlock => request.currentLock
  | .usbEnabled => config.enabled.usb.map fun set => Bytes.digits 2 set.bits.toNat
  | .nfcEnabled => config.enabled.nfc.map fun set => Bytes.digits 2 set.bits.toNat
  | .autoEjectTimeout => config.autoEjectTimeout.map fun time => Bytes.digits 2 time.toNat
  | .challengeResponseTimeout =>
    config.challengeResponseTimeout.map fun time => Bytes.digits 1 time.toNat
  | .deviceFlags => config.deviceFlags.map fun flags => Bytes.digits 1 flags.bits.toNat
  | .configLock => request.newLock
  | _ => none

/-- The tags that are sent, in their order. -/
def sentTags : List Tag :=
  [.reboot, .unlock, .usbEnabled, .nfcEnabled, .autoEjectTimeout, .challengeResponseTimeout,
    .deviceFlags, .configLock]

/-- The tagged values that are sent. -/
def sentTlvs (config : DeviceConfig) (request : Request) : List Tlv :=
  Tag.tlvs (sent config request) sentTags

/-- The bytes of a payload behind the one that counts them. -/
def sentBytes (config : DeviceConfig) (request : Request) : Bytes :=
  (sentTlvs config request).flatMap Tlv.bytes

/-- The number of bytes that are sent behind a tag. -/
def sentSize : Tag → Nat
  | .unlock | .configLock => lockCodeSize
  | .usbEnabled | .nfcEnabled | .autoEjectTimeout => 2
  | .challengeResponseTimeout | .deviceFlags => 1
  | _ => 0

/-- Every part has the right length, or fits the bytes that it gets. -/
structure Encodable (config : DeviceConfig) (request : Request) : Prop where
  /-- The code that unlocks has the length of a code. -/
  currentLock : ∀ code ∈ request.currentLock, code.length = 16
  /-- The code that locks has the length of a code. -/
  newLock : ∀ code ∈ request.newLock, code.length = 16
  /-- Capabilities fit two bytes. -/
  enabled : ∀ transport, ∀ set ∈ config.enabled.get? transport, set.bits.toNat ≤ 0xffff
  /-- The flags fit one byte. -/
  deviceFlags : ∀ flags ∈ config.deviceFlags, flags.bits.toNat ≤ 0xff

theorem not_encodable_iff :
    ¬ Encodable config request ↔
      (∃ code ∈ request.currentLock, code.length ≠ 16) ∨
      (∃ code ∈ request.newLock, code.length ≠ 16) ∨
      (∃ transport, ∃ set ∈ config.enabled.get? transport, 0xffff < set.bits.toNat) ∨
      ∃ flags ∈ config.deviceFlags, 0xff < flags.bits.toNat := by
  constructor
  · intro hnot
    by_contra hnone
    simp only [not_or, not_exists, not_and, not_lt, ne_eq, not_not] at hnone
    exact hnot ⟨hnone.1, hnone.2.1, hnone.2.2.1, hnone.2.2.2⟩
  · rintro (⟨code, hcode, hlength⟩ | ⟨code, hcode, hlength⟩ | ⟨transport, set, hset, hbits⟩ |
      ⟨flags, hflags, hbits⟩) h
    · exact hlength (h.currentLock code hcode)
    · exact hlength (h.newLock code hcode)
    · exact Nat.not_lt.mpr (h.enabled transport set hset) hbits
    · exact Nat.not_lt.mpr (h.deviceFlags flags hflags) hbits

/-! ### The parts -/

theorem guarded_lockBytes (code : Bytes) :
    Guarded (lockBytes code) (code.length = 16) code :=
  .ite code

theorem guarded_capabilityBytes (set : Capabilities) :
    Guarded (capabilityBytes set) (set.bits.toNat ≤ 0xffff) (Bytes.digits 2 set.bits.toNat) := by
  refine ⟨fun h => ?_, fun h => if_neg h⟩
  have hword : set.bits.toNat.toUInt16.toNat = set.bits.toNat :=
    UInt16.toNat_ofNat_of_lt' (Nat.lt_succ_of_le h)
  rw [capabilityBytes, if_pos h, Bytes.bigEndian_eq_digits, hword]

theorem guarded_flagBytes (flags : DeviceFlags) :
    Guarded (flagBytes flags) (flags.bits.toNat ≤ 0xff) (Bytes.digits 1 flags.bits.toNat) := by
  refine ⟨fun h => ?_, fun h => if_neg h⟩
  rw [flagBytes, if_pos h, Bytes.digits, Nat.mod_eq_of_lt (by omega)]
  rfl

theorem guarded_bigEndian (seconds : UInt16) :
    Guarded (.ok (Bytes.bigEndian seconds)) True (Bytes.digits 2 seconds.toNat) := by
  rw [Bytes.bigEndian_eq_digits]
  exact .pure _

theorem guarded_singleton (seconds : UInt8) :
    Guarded (.ok [seconds]) True (Bytes.digits 1 seconds.toNat) := by
  rw [Bytes.singleton_eq_digits]
  exact .pure _

/-- A part that is not there is no reason for refusal. -/
theorem guarded_tagged {α : Type} {bytes : α → Except Error Bytes} {fits : α → Prop}
    {form : α → Bytes} (h : ∀ value, Guarded (bytes value) (fits value) (form value)) (tag : Tag)
    (part : Option α) :
    Guarded (tagged tag bytes part) (∀ value ∈ part, fits value)
      ((part.map form).map (Tlv.mk tag.code)).toList := by
  cases part with
  | none => exact ⟨fun _ => rfl, fun hnot => absurd (by simp) hnot⟩
  | some value =>
    refine ⟨fun hfits => ?_, fun hnot => ?_⟩
    · rw [tagged, (h value).ok (hfits value rfl)]
      rfl
    · rw [tagged, (h value).error (by simpa using hnot)]

/-- **The tagged values of a configuration.** -/
theorem guarded_tlvs (config : DeviceConfig) (request : Request) :
    Guarded (config.tlvs request) (Encodable config request) (sentTlvs config request) := by
  have hreboot := guarded_tagged (fun _ : Unit => .pure []) .reboot
    (if request.reboot then some () else none)
  have hunlock := guarded_tagged guarded_lockBytes .unlock request.currentLock
  have husb := guarded_tagged guarded_capabilityBytes .usbEnabled config.enabled.usb
  have hnfc := guarded_tagged guarded_capabilityBytes .nfcEnabled config.enabled.nfc
  have heject := guarded_tagged guarded_bigEndian .autoEjectTimeout config.autoEjectTimeout
  have hwait := guarded_tagged guarded_singleton .challengeResponseTimeout
    config.challengeResponseTimeout
  have hflags := guarded_tagged guarded_flagBytes .deviceFlags config.deviceFlags
  have hlock := guarded_tagged guarded_lockBytes .configLock request.newLock
  unfold tlvs
  refine .congr (.bind hreboot <| .bind hunlock <| .bind husb <| .bind hnfc <| .bind heject <|
    .bind hwait <| .bind hflags <| .bind hlock <| .pure _) ?_ ?_
  · constructor
    · rintro ⟨-, hunlock, husb, hnfc, -, -, hflags, hlock, -⟩
      refine ⟨hunlock, hlock, fun transport => ?_, hflags⟩
      cases transport with
      | usb => exact husb
      | nfc => exact hnfc
    · intro h
      exact ⟨fun _ _ => trivial, h.currentLock, h.enabled .usb, h.enabled .nfc,
        fun _ _ => trivial, fun _ _ => trivial, h.deviceFlags, h.newLock, trivial⟩
  · rw [sentTlvs, Tag.tlvs, List.filterMap_eq_flatMap_toList]
    simp only [sentTags, List.flatMap_cons, List.flatMap_nil, List.append_assoc, List.append_nil,
      sent, Option.map_id_fun', id_eq]
    cases request.reboot <;> rfl

/-! ### The payload -/

/-- A value that is sent has a size that depends on its tag alone. -/
theorem length_of_mem_sent (h : Encodable config request) {tag : Tag} {bytes : Bytes}
    (hsent : bytes ∈ sent config request tag) : bytes.length = sentSize tag := by
  cases tag with
  | reboot =>
    rw [sent] at hsent
    split at hsent
    · obtain rfl := Option.some.inj hsent
      rfl
    · cases hsent
  | unlock => exact h.currentLock bytes hsent
  | configLock => exact h.newLock bytes hsent
  | usbEnabled | nfcEnabled | autoEjectTimeout | challengeResponseTimeout | deviceFlags =>
    obtain ⟨value, -, rfl⟩ := Option.map_eq_some_iff.mp hsent
    exact Bytes.length_digits _ _
  | _ => cases hsent

/-- No other tags are sent. -/
theorem tag_mem_of_mem_sentTlvs {tlv : Tlv} (hsent : tlv ∈ sentTlvs config request) :
    tlv.tag ∈ sentTags.map Tag.code :=
  (Tag.tags_tlvs_sublist _ sentTags).mem (List.mem_map_of_mem hsent)

theorem writable_of_mem_sentTlvs (h : Encodable config request) {tlv : Tlv}
    (hsent : tlv ∈ sentTlvs config request) : tlv.Writable := by
  obtain ⟨tag, -, bytes, hbytes, rfl⟩ := Tag.mem_tlvs_iff.mp hsent
  refine ⟨tag.isTag_tagBytes_code, ?_⟩
  have hsize : sentSize tag ≤ 16 := by cases tag <;> decide
  exact (length_of_mem_sent h hbytes).le.trans (hsize.trans (by decide))

/-- **A payload is short.** -/
theorem length_sentBytes_le (h : Encodable config request) :
    (sentBytes config request).length ≤ 56 :=
  Tag.length_flatMap_bytes_tlvs_le (fun tag => by cases tag <;> decide)
    fun _ _ hbytes => (length_of_mem_sent h hbytes).le

/-- One byte counts the bytes of a payload. -/
theorem length_sentBytes_eq (h : Encodable config request) :
    (sentBytes config request).length = (sentBytes config request).length.toUInt8.toNat :=
  (UInt8.toNat_ofNat_of_lt' ((length_sentBytes_le h).trans_lt (by decide))).symm

theorem decode?_sentBytes (h : Encodable config request) :
    Tlv.decode? (sentBytes config request) = some (sentTlvs config request) :=
  Tlv.decode?_flatMap_bytes fun _ htlv => writable_of_mem_sentTlvs h htlv

theorem decode_sentBytes (h : Encodable config request) :
    TagMap.decode (sentBytes config request) = .ok (TagMap.ofList (sentTlvs config request)) := by
  rw [TagMap.decode, decode?_sentBytes h]

theorem concatenated_of_length_le {tlvs : List Tlv}
    (h : ∀ tlv ∈ tlvs, tlv.value.length ≤ Tlv.maxLength) :
    concatenated tlvs = .ok (tlvs.flatMap Tlv.bytes) := by
  induction tlvs with
  | nil => rfl
  | cons tlv tlvs ih =>
    obtain ⟨hfirst, hrest⟩ := List.forall_mem_cons.mp h
    rw [concatenated, Tlv.encode_of_length_le hfirst, ih hrest]
    rfl

/-- **Encoding a configuration**: a payload that fits is what comes out, and the parts are the only
reason for refusal. The length never is one, as there is no room for a long payload. -/
theorem guarded_encode (config : DeviceConfig) (request : Request) :
    Guarded (config.encode request) (Encodable config request)
      ⟨(sentBytes config request).length.toUInt8 :: sentBytes config request,
        [.configEncoded (sentBytes config request).length]⟩ := by
  refine ⟨fun h => ?_, fun hnot => ?_⟩
  · have hconcatenated : concatenated (sentTlvs config request) = .ok (sentBytes config request) :=
      concatenated_of_length_le fun tlv htlv => (writable_of_mem_sentTlvs h htlv).length_le
    have hlength := length_sentBytes_le h
    rw [encode, (guarded_tlvs config request).ok h]
    change (concatenated (sentTlvs config request) >>= _) = _
    rw [hconcatenated]
    exact if_pos (hlength.trans (by decide))
  · rw [encode, (guarded_tlvs config request).error hnot]
    rfl

/-! ### What a payload says -/

/-- What a decoded payload says about the configuration and the request it was made of, tag by
tag. -/
structure Sends (config : DeviceConfig) (request : Request) (values : TagMap) : Prop where
  /-- A restart is asked for by a tag without a value. -/
  reboot : values.get? 0x0c = if request.reboot then some [] else none
  /-- The code that unlocks is there if it was given. -/
  currentLock : values.get? 0x0b = request.currentLock
  /-- Capabilities over USB take two bytes. -/
  usb : values.get? 0x03 =
    (config.enabled.get? .usb).map fun capabilities => Bytes.digits 2 capabilities.bits.toNat
  /-- Capabilities over NFC take two bytes. -/
  nfc : values.get? 0x0e =
    (config.enabled.get? .nfc).map fun capabilities => Bytes.digits 2 capabilities.bits.toNat
  /-- The time until a token ejects itself takes two bytes. -/
  autoEject : values.get? 0x06 =
    config.autoEjectTimeout.map fun seconds => Bytes.digits 2 seconds.toNat
  /-- The time to wait for a touch takes one byte. -/
  challengeResponse : values.get? 0x07 =
    config.challengeResponseTimeout.map fun seconds => Bytes.digits 1 seconds.toNat
  /-- The flags take one byte. -/
  deviceFlags : values.get? 0x08 =
    config.deviceFlags.map fun flags => Bytes.digits 1 flags.bits.toNat
  /-- The code that locks is there if it was given. -/
  newLock : values.get? 0x0a = request.newLock

theorem sends_ofList_sentTlvs (config : DeviceConfig) (request : Request) :
    Sends config request (TagMap.ofList (sentTlvs config request)) := by
  have hget : ∀ tag ∈ sentTags, (TagMap.ofList (sentTlvs config request)).get? tag.code =
      sent config request tag := fun tag htag => by
    rw [sentTlvs, TagMap.get?_ofList_tlvs, if_pos htag]
  exact {
    reboot := hget .reboot (by decide)
    currentLock := hget .unlock (by decide)
    usb := hget .usbEnabled (by decide)
    nfc := hget .nfcEnabled (by decide)
    autoEject := hget .autoEjectTimeout (by decide)
    challengeResponse := hget .challengeResponseTimeout (by decide)
    deviceFlags := hget .deviceFlags (by decide)
    newLock := hget .configLock (by decide) }

/-- Parts that are written with the same digits are the same, if the digits are enough. -/
theorem eq_of_map_digits_eq {α : Type} {number : α → Nat} (hnumber : Function.Injective number)
    {width : Nat} {a b : Option α} (ha : ∀ value ∈ a, number value < 256 ^ width)
    (hb : ∀ value ∈ b, number value < 256 ^ width)
    (h : (a.map fun value => Bytes.digits width (number value)) =
      b.map fun value => Bytes.digits width (number value)) : a = b := by
  match a, b, h with
  | none, none, _ => rfl
  | some a, some b, h =>
    have hdigits := (Bytes.digits_inj (ha a rfl) (hb b rfl)).mp (Option.some.inj h)
    rw [hnumber hdigits]

theorem bits_toNat_injective {width : Nat} {vocabulary : Vocabulary width} :
    Function.Injective fun flags : FlagWord vocabulary => flags.bits.toNat := by
  rintro ⟨a⟩ ⟨b⟩ h
  obtain rfl := BitVec.eq_of_toNat_eq h
  rfl

/-- **A payload says all about what it was made of.** -/
theorem Sends.unique {other : DeviceConfig} {otherRequest : Request} {values : TagMap}
    (hfits : Encodable config request) (hother : Encodable other otherRequest)
    (h : Sends config request values) (h' : Sends other otherRequest values) :
    config = other ∧ request = otherRequest := by
  have henabled : ∀ {config : DeviceConfig} {request : Request}, Encodable config request →
      ∀ transport, ∀ capabilities ∈ config.enabled.get? transport,
        capabilities.bits.toNat < 256 ^ 2 :=
    fun h transport capabilities hmem => Nat.lt_succ_of_le (h.enabled transport capabilities hmem)
  have hflags : ∀ {config : DeviceConfig} {request : Request}, Encodable config request →
      ∀ flags ∈ config.deviceFlags, flags.bits.toNat < 256 ^ 1 :=
    fun h flags hmem => Nat.lt_succ_of_le (h.deviceFlags flags hmem)
  have husb := eq_of_map_digits_eq bits_toNat_injective (henabled hfits .usb)
    (henabled hother .usb) (h.usb.symm.trans h'.usb)
  have hnfc := eq_of_map_digits_eq bits_toNat_injective (henabled hfits .nfc)
    (henabled hother .nfc) (h.nfc.symm.trans h'.nfc)
  have heject := eq_of_map_digits_eq (fun _ _ => UInt16.toNat_inj.mp)
    (fun seconds _ => seconds.toNat_lt) (fun seconds _ => seconds.toNat_lt)
    (h.autoEject.symm.trans h'.autoEject)
  have hwait := eq_of_map_digits_eq (fun _ _ => UInt8.toNat_inj.mp)
    (fun seconds _ => seconds.toNat_lt) (fun seconds _ => seconds.toNat_lt)
    (h.challengeResponse.symm.trans h'.challengeResponse)
  have hdevice := eq_of_map_digits_eq bits_toNat_injective (hflags hfits) (hflags hother)
    (h.deviceFlags.symm.trans h'.deviceFlags)
  have hreboot : request.reboot = otherRequest.reboot := by
    have hsame := h.reboot.symm.trans h'.reboot
    cases hr : request.reboot <;> cases hr' : otherRequest.reboot <;> simp_all
  have hcurrent := h.currentLock.symm.trans h'.currentLock
  have hnew := h.newLock.symm.trans h'.newLock
  obtain ⟨⟨usb, nfc⟩, eject, wait, flags⟩ := config
  obtain ⟨⟨usb', nfc'⟩, eject', wait', flags'⟩ := other
  obtain ⟨reboot, current, new⟩ := request
  obtain ⟨reboot', current', new'⟩ := otherRequest
  simp only [PerTransport.get?] at *
  subst husb hnfc heject hwait hdevice hreboot hcurrent hnew
  exact ⟨rfl, rfl⟩

/-- **Which configurations are encoded, and what the payload says.** A configuration is refused for
a code that is not 16 bytes long, for capabilities over a transport that do not fit two bytes, or
for flags that do not fit one, always with the same error, and for nothing else. What is encoded is
a byte that counts the bytes behind it, 56 at most. They decode to a value for each part that is
there and for nothing else, each tag once and in a fixed order. Equal payloads are made of equal
configurations and requests. -/
theorem encode_characterization (config : DeviceConfig) (request : Request) :
    (∀ fault, config.encode request = .error fault ↔ fault = .argument ∧
      ((∃ code ∈ request.currentLock, code.length ≠ 16) ∨
        (∃ code ∈ request.newLock, code.length ≠ 16) ∨
        (∃ transport, ∃ capabilities ∈ config.enabled.get? transport,
          0xffff < capabilities.bits.toNat) ∨
        ∃ flags ∈ config.deviceFlags, 0xff < flags.bits.toNat)) ∧
    (∀ written, config.encode request = .ok written →
      ∃ count payload tlvs values, written.value = count :: payload ∧
        payload.length = count.toNat ∧ payload.length ≤ 56 ∧
        TagMap.decode payload = .ok values ∧ Sends config request values ∧
        (∀ tag ∈ values.tags, tag ∈ [0x0c, 0x0b, 0x03, 0x0e, 0x06, 0x07, 0x08, 0x0a]) ∧
        Tlv.decode? payload = some tlvs ∧
        (tlvs.map (·.tag)).Sublist [0x0c, 0x0b, 0x03, 0x0e, 0x06, 0x07, 0x08, 0x0a]) ∧
    (∀ other otherRequest written otherWritten, config.encode request = .ok written →
      other.encode otherRequest = .ok otherWritten → written.value = otherWritten.value →
      config = other ∧ request = otherRequest) := by
  refine ⟨fun fault => ?_, fun written hwritten => ?_,
    fun other otherRequest written otherWritten hwritten hother hsame => ?_⟩
  · rw [(guarded_encode config request).eq_error_iff, not_encodable_iff]
  · obtain ⟨hfits, rfl⟩ := (guarded_encode config request).eq_ok_iff.mp hwritten
    refine ⟨_, _, sentTlvs config request, TagMap.ofList (sentTlvs config request), rfl,
      length_sentBytes_eq hfits, length_sentBytes_le hfits, decode_sentBytes hfits,
      sends_ofList_sentTlvs config request, fun tag htag => ?_, decode?_sentBytes hfits,
      Tag.tags_tlvs_sublist _ sentTags⟩
    rw [TagMap.mem_tags_iff, Ne, TagMap.get?_ofList_eq_none_iff] at htag
    push Not at htag
    obtain ⟨tlv, htlv, rfl⟩ := htag
    exact tag_mem_of_mem_sentTlvs htlv
  · obtain ⟨hfits, rfl⟩ := (guarded_encode config request).eq_ok_iff.mp hwritten
    obtain ⟨hotherFits, rfl⟩ := (guarded_encode other otherRequest).eq_ok_iff.mp hother
    have hbytes : sentBytes config request = sentBytes other otherRequest :=
      (List.cons.inj hsame).2
    -- what is decoded from both is the same, and it leaves nothing of either open
    have hvalues := (decode_sentBytes hfits).symm.trans (hbytes ▸ decode_sentBytes hotherFits)
    have hsends := sends_ofList_sentTlvs other otherRequest
    rw [← Except.ok.inj hvalues] at hsends
    exact (sends_ofList_sentTlvs config request).unique hfits hotherFits hsends

end DeviceConfig

end TokenConfig
