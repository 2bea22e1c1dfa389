import TokenConfig.Proofs.Device.Payload
import TokenConfig.Proofs.Device.Response

/-!
# Reading a payload as a response

A payload that changes a configuration and a response that reports one are both tagged values
behind a byte that counts them, and share most of their tags. They do not say the same, though: a
response has numbers where a payload may have nothing, it takes no notice of NFC unless NFC is
supported, and some versions are not believed about USB.

* `TokenConfig.DeviceConfig.readBack` is the configuration that is read where a given one was
  written (`TokenConfig.DeviceInfo.exists_parse_sentBytes_append`), possibly with a report of NFC
  put behind it.
* A configuration that was read is its own read-back, if NFC is reported again
  (`TokenConfig.DeviceInfo.readBack_config_ofTags`).

So a configuration that a token reports survives being written and read
(`TokenConfig.DeviceInfo.encode_parse_agree`).
-/

namespace TokenConfig

namespace DeviceConfig

/-- The configuration that is read where this one was written: numbers that are not there are zero,
USB is left out for the versions that are not believed, NFC is there if it is supported. -/
def readBack (config : DeviceConfig) (version : Version) (hasNfc : Bool) : DeviceConfig where
  enabled := ⟨if version.major = 4 then none else config.enabled.usb,
    if hasNfc then some (config.enabled.nfc.getD .empty) else none⟩
  autoEjectTimeout := some (config.autoEjectTimeout.getD 0)
  challengeResponseTimeout := some (config.challengeResponseTimeout.getD 0)
  deviceFlags := some (config.deviceFlags.getD .empty)

/-- What is said does not depend on the tags that are never sent. -/
theorem Sends.congr {config : DeviceConfig} {request : Request} {values others : TagMap}
    (h : Sends config request values)
    (hsame : ∀ tag ≠ 0x0d, others.get? tag = values.get? tag) : Sends config request others where
  reboot := (hsame _ (by decide)).trans h.reboot
  currentLock := (hsame _ (by decide)).trans h.currentLock
  usb := (hsame _ (by decide)).trans h.usb
  nfc := (hsame _ (by decide)).trans h.nfc
  autoEject := (hsame _ (by decide)).trans h.autoEject
  challengeResponse := (hsame _ (by decide)).trans h.challengeResponse
  deviceFlags := (hsame _ (by decide)).trans h.deviceFlags
  newLock := (hsame _ (by decide)).trans h.newLock

end DeviceConfig

namespace DeviceInfo

variable {config : DeviceConfig} {request : DeviceConfig.Request} {values : TagMap}
  {version : Version}

/-! ### Numbers that were written -/

/-- Flags that were written with enough digits are read as they were. -/
theorem toBitVec_toWord_digits {vocabulary : Vocabulary 32} {width : Nat}
    (flags : FlagWord vocabulary) (hwidth : width ≤ 4) (h : flags.bits.toNat < 256 ^ width) :
    ⟨(Bytes.toWord (Bytes.digits width flags.bits.toNat)).toBitVec⟩ = flags := by
  obtain ⟨bits⟩ := flags
  have hbits : (Bytes.toWord (Bytes.digits width bits.toNat)).toBitVec = bits :=
    BitVec.eq_of_toNat_eq (Bytes.toNat_toWord_digits hwidth h)
  rw [hbits]

theorem toUInt16_toWord_digits (seconds : UInt16) :
    (Bytes.toWord (Bytes.digits 2 seconds.toNat)).toUInt16 = seconds := by
  apply UInt16.toNat_inj.mp
  rw [UInt32.toNat_toUInt16, Bytes.toNat_toWord_digits (by decide) seconds.toNat_lt]
  exact Nat.mod_eq_of_lt seconds.toNat_lt

theorem toUInt8_toWord_digits (seconds : UInt8) :
    (Bytes.toWord (Bytes.digits 1 seconds.toNat)).toUInt8 = seconds := by
  apply UInt8.toNat_inj.mp
  rw [UInt32.toNat_toUInt8, Bytes.toNat_toWord_digits (by decide) seconds.toNat_lt]
  exact Nat.mod_eq_of_lt seconds.toNat_lt

/-- Capabilities that were written are read as they were. -/
theorem capabilitiesAt_of_digits {tag : UInt32} {part : Option Capabilities}
    (hfits : ∀ capabilities ∈ part, capabilities.bits.toNat ≤ 0xffff)
    (h : values.get? tag = part.map fun capabilities => Bytes.digits 2 capabilities.bits.toNat) :
    capabilitiesAt values tag = part := by
  rw [capabilitiesAt, h]
  cases part with
  | none => rfl
  | some capabilities =>
    exact congrArg some (toBitVec_toWord_digits capabilities (by decide)
      (Nat.lt_succ_of_le (hfits capabilities rfl)))

/-! ### What is read of what was sent -/

theorem config_ofTags (values : TagMap) (fallback : Version) :
    (ofTags values fallback).value.config =
      { enabled := ⟨if (ofTags values fallback).value.version.major = 4 then none
            else capabilitiesAt values 0x03,
          (capabilitiesAt values 0x0d).map fun _ => (capabilitiesAt values 0x0e).getD ⟨0⟩⟩
        autoEjectTimeout := some (values.word 0x06).toUInt16
        challengeResponseTimeout := some (values.word 0x07).toUInt8
        deviceFlags := some ⟨(values.word 0x08).toBitVec⟩ } := by
  rw [← enabled_ofTags]
  rfl

/-- **What is read of what was sent.** -/
theorem config_ofTags_of_sends (hfits : DeviceConfig.Encodable config request)
    (h : DeviceConfig.Sends config request values) (hversion : values.get? 0x05 = none) :
    (ofTags values version).value.version = version ∧
      (ofTags values version).value.config =
        config.readBack version (capabilitiesAt values 0x0d).isSome := by
  have hsame : (ofTags values version).value.version = version := by
    rw [version_ofTags, hversion]
    rfl
  have heject : (values.word 0x06).toUInt16 = config.autoEjectTimeout.getD 0 := by
    rw [TagMap.word, h.autoEject]
    cases config.autoEjectTimeout with
    | none => rfl
    | some seconds => exact toUInt16_toWord_digits seconds
  have hwait : (values.word 0x07).toUInt8 = config.challengeResponseTimeout.getD 0 := by
    rw [TagMap.word, h.challengeResponse]
    cases config.challengeResponseTimeout with
    | none => rfl
    | some seconds => exact toUInt8_toWord_digits seconds
  have hflags : ⟨(values.word 0x08).toBitVec⟩ = config.deviceFlags.getD .empty := by
    have hbits := hfits.deviceFlags
    rw [TagMap.word, h.deviceFlags]
    cases hsome : config.deviceFlags with
    | none => rfl
    | some flags =>
      exact toBitVec_toWord_digits flags (by decide) (Nat.lt_succ_of_le (hbits flags hsome))
  refine ⟨hsame, ?_⟩
  rw [config_ofTags, hsame, heject, hwait, hflags,
    capabilitiesAt_of_digits (hfits.enabled .usb) h.usb,
    capabilitiesAt_of_digits (hfits.enabled .nfc) h.nfc]
  cases capabilitiesAt values 0x0d <;> rfl

/-- What is decoded of a payload with reports of NFC behind it. -/
theorem exists_decode_sentBytes_append (hfits : DeviceConfig.Encodable config request)
    {support : List Tlv.Encoding} (hsupport : ∀ encoding ∈ support, encoding.tag = 0x0d) :
    ∃ values, TagMap.decode (DeviceConfig.sentBytes config request ++
        Tlv.Encoding.concat support) = .ok values ∧
      DeviceConfig.Sends config request values ∧ values.get? 0x05 = none ∧
      (values.get? 0x0d = none ↔ support = []) := by
  obtain ⟨encodings, hbytes, htlvs⟩ := Tlv.exists_concat_eq_flatMap_bytes
    fun tlv htlv => DeviceConfig.writable_of_mem_sentTlvs hfits htlv
  have hdecode : TagMap.decode (DeviceConfig.sentBytes config request ++
      Tlv.Encoding.concat support) = .ok (TagMap.ofList
        (DeviceConfig.sentTlvs config request ++ support.map (·.tlv))) := by
    refine TagMap.decode_eq_ok_iff.mpr ⟨encodings ++ support, ?_, ?_⟩
    · rw [DeviceConfig.sentBytes, ← hbytes, Tlv.Encoding.concat, Tlv.Encoding.concat,
        Tlv.Encoding.concat, List.flatMap_append]
    · rw [List.map_append, htlvs]
  -- the reports have one tag, which is not sent, so each side is asked for its own tags only
  have hreports : ∀ tag, (TagMap.ofList (support.map (·.tlv))).get? tag = none ↔
      support = [] ∨ tag ≠ 0x0d := by
    intro tag
    rw [TagMap.get?_ofList_eq_none_iff, List.forall_mem_map]
    constructor
    · intro hnone
      refine or_iff_not_imp_left.mpr fun hne => ?_
      obtain ⟨encoding, hmem⟩ := List.exists_mem_of_ne_nil support hne
      exact fun htag => hnone encoding hmem ((hsupport encoding hmem).trans htag.symm)
    · rintro (rfl | htag) encoding hmem
      · cases hmem
      · exact fun hsame => htag (hsame.symm.trans (hsupport encoding hmem))
  have hsent : ∀ tag ∉ DeviceConfig.sentTags.map Tag.code,
      (TagMap.ofList (DeviceConfig.sentTlvs config request)).get? tag = none := by
    intro tag htag
    refine TagMap.get?_ofList_eq_none_iff.mpr fun tlv htlv hsame => htag ?_
    rw [← hsame]
    exact DeviceConfig.tag_mem_of_mem_sentTlvs htlv
  refine ⟨_, hdecode, (DeviceConfig.sends_ofList_sentTlvs config request).congr fun tag htag => ?_,
    ?_, ?_⟩
  · rw [TagMap.get?_ofList_append, (hreports tag).mpr (Or.inr htag), Option.none_or]
  · rw [TagMap.get?_ofList_append, (hreports 0x05).mpr (Or.inr (by decide)), Option.none_or]
    exact hsent 0x05 (by decide)
  · rw [TagMap.get?_ofList_append, hsent 0x0d (by decide), Option.or_none, hreports]
    simp

/-- **Reading a payload**, perhaps with reports of NFC behind it. -/
theorem exists_parse_sentBytes_append (hfits : DeviceConfig.Encodable config request)
    {support : List Tlv.Encoding} (hsupport : ∀ encoding ∈ support, encoding.tag = 0x0d)
    {bytes : Bytes}
    (hbytes : bytes = DeviceConfig.sentBytes config request ++ Tlv.Encoding.concat support)
    (hlength : bytes.length ≤ 255) (version : Version) :
    ∃ read, parse (bytes.length.toUInt8 :: bytes) version = .ok read ∧
      read.value.version = version ∧
      read.value.config = config.readBack version !support.isEmpty ∧
      (read.value.supported.get? .nfc = none ↔ support = []) := by
  obtain ⟨values, hdecode, hsends, hversion, hnfc⟩ :=
    exists_decode_sentBytes_append hfits hsupport
  have hcount : bytes.length = bytes.length.toUInt8.toNat :=
    (UInt8.toNat_ofNat_of_lt' (Nat.lt_succ_of_le hlength)).symm
  have hread : parse (bytes.length.toUInt8 :: bytes) version = .ok (ofTags values version) :=
    parse_eq_ok_iff.mpr ⟨_, _, values, rfl, hcount, hbytes ▸ hdecode, rfl⟩
  have hreported : capabilitiesAt values 0x0d = none ↔ support = [] := by
    rw [capabilitiesAt, Option.map_eq_none_iff, hnfc]
  obtain ⟨hsame, hconfig⟩ := config_ofTags_of_sends hfits hsends hversion
  refine ⟨_, hread, hsame, ?_, ?_⟩
  · have hsome : (capabilitiesAt values 0x0d).isSome = !support.isEmpty := by
      rw [Bool.eq_iff_iff, Option.isSome_iff_ne_none, Ne, hreported]
      simp
    rw [hconfig, hsome]
  · rw [supported_ofTags]
    exact hreported

/-- **Every payload is read**, by any version, and without NFC. -/
theorem exists_parse_of_encode {written : Logged Bytes} (h : config.encode request = .ok written)
    (version : Version) :
    ∃ read, parse written.value version = .ok read ∧ read.value.version = version ∧
      read.value.config = config.readBack version false ∧
      read.value.supported.get? .nfc = none := by
  obtain ⟨hfits, rfl⟩ := (DeviceConfig.guarded_encode config request).eq_ok_iff.mp h
  have hnone : ∀ encoding ∈ ([] : List Tlv.Encoding), encoding.tag = 0x0d := by simp
  obtain ⟨read, hread, hsame, hconfig, hnfc⟩ := exists_parse_sentBytes_append hfits hnone
    (List.append_nil _).symm ((DeviceConfig.length_sentBytes_le hfits).trans (by decide)) version
  exact ⟨read, hread, hsame, hconfig, hnfc.mpr rfl⟩

/-! ### What was read before -/

/-- **A configuration that was read is read back as it is**, if NFC is reported again. -/
theorem readBack_config_ofTags (values : TagMap) (fallback : Version) :
    (ofTags values fallback).value.config.readBack (ofTags values fallback).value.version
      ((ofTags values fallback).value.supported.get? .nfc).isSome =
      (ofTags values fallback).value.config := by
  rw [supported_ofTags, config_ofTags]
  simp only [DeviceConfig.readBack, PerTransport.get?, Option.getD_some]
  congr 1
  congr 1
  · split <;> rfl
  · cases capabilitiesAt values 0x0d <;> rfl

/-- What is put behind a payload to report NFC as a token did: that NFC supports something if the
token has NFC, however the length of the value is written, and else nothing. -/
def ReportsNfc (info : DeviceInfo) (support : Bytes) : Prop :=
  if .nfc ∈ info.transports then
    ∃ encoding : Tlv.Encoding, encoding.tag = 0x0d ∧ support = encoding.bytes
  else support = []

theorem ReportsNfc.exists_concat {info : DeviceInfo} {support : Bytes}
    (h : ReportsNfc info support) :
    ∃ encodings : List Tlv.Encoding, (∀ encoding ∈ encodings, encoding.tag = 0x0d) ∧
      support = Tlv.Encoding.concat encodings ∧
      (!encodings.isEmpty) = (info.supported.get? .nfc).isSome := by
  have hhas : .nfc ∈ info.transports ↔ info.supported.get? .nfc ≠ none :=
    PerTransport.mem_transports_iff
  unfold ReportsNfc at h
  split at h
  · next hnfc =>
    obtain ⟨encoding, htag, rfl⟩ := h
    refine ⟨[encoding], by simpa using htag, (List.append_nil _).symm, ?_⟩
    rw [Option.isSome_iff_ne_none.mpr (hhas.mp hnfc)]
    rfl
  · next hnfc =>
    refine ⟨[], by simp, h, ?_⟩
    rw [not_not.mp (hhas.not.mp hnfc)]
    rfl

/-- **Writing and reading a configuration agree.** A payload is read as a response by every version,
and what was written is what is read, zero where nothing was written; USB is left out for versions
4, NFC always. A configuration that a token reports can be written if its capabilities fit two bytes
and its flags fit one. Then it is read back without NFC, and as it was reported if the payload
reports NFC as the token did. -/
theorem encode_parse_agree :
    (∀ (config : DeviceConfig) request written version, config.encode request = .ok written →
      ∃ read, parse written.value version = .ok read ∧ read.value.version = version ∧
        read.value.config.autoEjectTimeout = some (config.autoEjectTimeout.getD 0) ∧
        read.value.config.challengeResponseTimeout =
          some (config.challengeResponseTimeout.getD 0) ∧
        read.value.config.deviceFlags = some (config.deviceFlags.getD ⟨0⟩) ∧
        read.value.config.enabled.get? .usb =
          (if version.major = 4 then none else config.enabled.get? .usb) ∧
        read.value.config.enabled.get? .nfc = none ∧ read.value.supported.get? .nfc = none) ∧
    ∀ response fallback read, parse response fallback = .ok read →
      ((∃ written, read.value.config.encode ⟨false, none, none⟩ = .ok written) ↔
        (∀ transport, ∀ capabilities ∈ read.value.config.enabled.get? transport,
          capabilities.bits.toNat ≤ 0xffff) ∧
        ∀ flags ∈ read.value.config.deviceFlags, flags.bits.toNat ≤ 0xff) ∧
      ∀ written, read.value.config.encode ⟨false, none, none⟩ = .ok written →
        (∃ again, parse written.value read.value.version = .ok again ∧
          again.value.config = { read.value.config with
            enabled := ⟨read.value.config.enabled.get? .usb, none⟩ }) ∧
        ∀ count payload support bytes, written.value = count :: payload →
          ReportsNfc read.value support → bytes = payload ++ support → bytes.length ≤ 255 →
          ∃ again, parse (bytes.length.toUInt8 :: bytes) read.value.version = .ok again ∧
            again.value.config = read.value.config := by
  constructor
  · intro config request written version hencode
    obtain ⟨read, hread, hsame, hconfig, hnfc⟩ := exists_parse_of_encode hencode version
    refine ⟨read, hread, hsame, ?_⟩
    rw [hconfig]
    exact ⟨rfl, rfl, rfl, rfl, rfl, hnfc⟩
  · intro response fallback read hresponse
    obtain ⟨_, _, values, -, -, -, rfl⟩ := parse_eq_ok_iff.mp hresponse
    have hback := readBack_config_ofTags values fallback
    generalize (ofTags values fallback).value = info at hback
    refine ⟨?_, fun written hencode => ⟨?_, ?_⟩⟩
    · simp only [(DeviceConfig.guarded_encode info.config ⟨false, none, none⟩).eq_ok_iff]
      constructor
      · rintro ⟨-, hfits, -⟩
        exact ⟨hfits.enabled, hfits.deviceFlags⟩
      · rintro ⟨henabled, hflags⟩
        exact ⟨_, ⟨by simp, by simp, henabled, hflags⟩, rfl⟩
    · obtain ⟨again, hagain, -, hconfig, -⟩ := exists_parse_of_encode hencode info.version
      refine ⟨again, hagain, hconfig.trans ?_⟩
      -- without NFC the read-back differs in the entry of NFC alone
      have hwithout : info.config.readBack info.version false =
          { info.config.readBack info.version (info.supported.get? .nfc).isSome with
            enabled := ⟨(info.config.readBack info.version
              (info.supported.get? .nfc).isSome).enabled.get? .usb, none⟩ } := rfl
      rwa [hback] at hwithout
    · rintro count payload support bytes hvalue hsupport hbytes hlength
      obtain ⟨hfits, rfl⟩ :=
        (DeviceConfig.guarded_encode info.config ⟨false, none, none⟩).eq_ok_iff.mp hencode
      obtain ⟨-, rfl⟩ := List.cons.inj hvalue
      obtain ⟨encodings, htag, rfl, hhas⟩ := hsupport.exists_concat
      obtain ⟨again, hagain, -, hconfig, -⟩ :=
        exists_parse_sentBytes_append hfits htag hbytes hlength info.version
      refine ⟨again, hagain, ?_⟩
      rw [hconfig, hhas, hback]

/-- The configuration of a token with NFC. It is read back as it was with a report of NFC behind it,
whose length takes two bytes, and without USB by a version 4. -/
theorem encode_parse_agree_of_nfc :
    ∃ read written again other,
      parse [0x14, 0x05, 0x03, 5, 4, 3, 0x03, 0x02, 0x02, 0x3b, 0x0d, 0x02, 0x02, 0x3b, 0x0e, 0x01,
        0x21, 0x06, 0x02, 0x01, 0x00] ⟨3, 0, 0⟩ = .ok read ∧
      read.value.config.encode ⟨false, none, none⟩ = .ok written ∧
      written.value = [0x12, 0x03, 0x02, 0x02, 0x3b, 0x0e, 0x02, 0x00, 0x21, 0x06, 0x02, 0x01, 0x00,
        0x07, 0x01, 0x00, 0x08, 0x01, 0x00] ∧
      parse [0x16, 0x03, 0x02, 0x02, 0x3b, 0x0e, 0x02, 0x00, 0x21, 0x06, 0x02, 0x01, 0x00, 0x07,
        0x01, 0x00, 0x08, 0x01, 0x00, 0x0d, 0x81, 0x01, 0x07] read.value.version = .ok again ∧
      again.value.config = read.value.config ∧
      parse written.value ⟨4, 2, 4⟩ = .ok other ∧
      other.value.config.enabled.get? .usb = none ∧
      other.value.config.autoEjectTimeout = some 256 := by
  let encodings : List Tlv.Encoding := [
    ⟨[0x05], [0x03], [5, 4, 3], .short _ (by decide), .short 3 (by decide)⟩,
    ⟨[0x03], [0x02], [0x02, 0x3b], .short _ (by decide), .short 2 (by decide)⟩,
    ⟨[0x0d], [0x02], [0x02, 0x3b], .short _ (by decide), .short 2 (by decide)⟩,
    ⟨[0x0e], [0x01], [0x21], .short _ (by decide), .short 1 (by decide)⟩,
    ⟨[0x06], [0x02], [0x01, 0x00], .short _ (by decide), .short 2 (by decide)⟩]
  let report : Tlv.Encoding := ⟨[0x0d], [0x81, 0x01], [0x07], .short _ (by decide),
    .long 0x81 [0x01] (by decide) (by decide) (by decide)⟩
  have hread : parse (0x14 :: Tlv.Encoding.concat encodings) ⟨3, 0, 0⟩ = .ok _ :=
    parse_eq_ok_iff.mpr ⟨_, _, _, rfl, rfl, TagMap.decode_eq_ok_iff.mpr ⟨encodings, rfl, rfl⟩, rfl⟩
  obtain ⟨hback, hforth⟩ := encode_parse_agree
  obtain ⟨-, hagain⟩ := hforth _ _ _ hread
  have hconfig : (ofTags (TagMap.ofList (encodings.map (·.tlv))) ⟨3, 0, 0⟩).value.config =
      ⟨⟨some ⟨0x23b⟩, some ⟨0x21⟩⟩, some 256, some 0, some ⟨0⟩⟩ := by decide +kernel
  have hencode : (ofTags (TagMap.ofList (encodings.map (·.tlv))) ⟨3, 0, 0⟩).value.config.encode
      ⟨false, none, none⟩ = .ok ⟨[0x12, 0x03, 0x02, 0x02, 0x3b, 0x0e, 0x02, 0x00, 0x21, 0x06, 0x02,
        0x01, 0x00, 0x07, 0x01, 0x00, 0x08, 0x01, 0x00], [.configEncoded 18]⟩ := by
    rw [hconfig]
    rfl
  have hnfc : ReportsNfc (ofTags (TagMap.ofList (encodings.map (·.tlv))) ⟨3, 0, 0⟩).value
      report.bytes := by
    rw [ReportsNfc, if_pos (by decide)]
    exact ⟨report, rfl, rfl⟩
  obtain ⟨again, hparse, hsame⟩ := (hagain _ hencode).2 _ _ _ _ rfl hnfc rfl (by decide)
  obtain ⟨other, hother, -, heject, -, -, husb, -⟩ := hback _ _ _ ⟨4, 2, 4⟩ hencode
  exact ⟨_, _, again, other, hread, hencode, rfl, hparse, hsame, hother, husb, heject⟩

end DeviceInfo

end TokenConfig
