import TokenConfig.Proofs.CommandLine.Otp
import TokenConfig.Proofs.Secrecy.Redaction

/-!
# Secrets among the arguments

The subcommand `otp` is given identifiers, keys and codes as hexadecimal arguments. To redact such
an argument is to write zeros in place of its digits (`TokenConfig.Hex.redacted`); text that is not
hexadecimal is left as it is, since it stands for nothing. So two arguments redact to the same if
they are the same, or stand for as many bytes (`TokenConfig.Hex.redacted_eq_iff`).

Two sessions are **alike** (`TokenConfig.Session.Alike`) if they write the same, and both give up or
have results that are related in a way that is given with them. Sessions alike that go on alike are
alike (`TokenConfig.Session.Alike.bind`), so it is enough to look at the single things that a run
does with its arguments. For each of them lengths decide on what is written and on whether the run
goes on, and what it goes on with redacts to the same. Hence two runs with arguments that redact to
the same are alike up to the point where the record is shown (`TokenConfig.Otp.alike_prepared`).
-/

namespace TokenConfig

/-! ### Hexadecimal arguments -/

namespace Hex

/-- Digits of zeros, in place of text that stands for bytes. Any other text stays. -/
def redacted (text : String) : String :=
  match decode (Blank.trim text) with
  | .ok bytes => encode bytes.redacted
  | .error _ => text

theorem Stands.redacted_eq {text : String} {bytes : Bytes} (h : Stands text bytes) :
    redacted text = encode bytes.redacted := by
  rw [redacted, decode_trim_eq_ok_iff.mpr h]

theorem redacted_eq_self {text : String} (h : ∀ bytes, ¬ Stands text bytes) :
    redacted text = text := by
  rw [redacted]
  split
  · next bytes hbytes => exact absurd (decode_trim_eq_ok_iff.mp hbytes) (h bytes)
  · rfl

/-- What is encoded stands for the bytes. -/
theorem stands_encode (bytes : Bytes) : Stands (encode bytes) bytes := by
  have hdigit : ∀ value < 16, Blank.isBlank (digit value) = false := by decide
  have hblank : ∀ c ∈ (encode bytes).toList, Blank.isBlank c = false := by
    intro c hc
    obtain ⟨value, hvalue, rfl⟩ := mem_encode hc
    exact hdigit value hvalue
  exact ⟨_, Blank.isTrimmed_iff.mpr (Blank.trimChars_of_not_blank hblank), spells_encode bytes⟩

/-- **Arguments that redact to the same** are the same, or stand for as many bytes. -/
theorem redacted_eq_iff {text other : String} :
    redacted text = redacted other ↔
      text = other ∨ ∃ bytes otherBytes, Stands text bytes ∧ Stands other otherBytes ∧
        bytes.length = otherBytes.length := by
  constructor
  · intro h
    by_cases htext : ∃ bytes, Stands text bytes
    · obtain ⟨bytes, hbytes⟩ := htext
      rw [hbytes.redacted_eq] at h
      by_cases hother : ∃ bytes, Stands other bytes
      · obtain ⟨otherBytes, hotherBytes⟩ := hother
        rw [hotherBytes.redacted_eq] at h
        have hzeros := (spells_encode bytes.redacted).unique (h ▸ spells_encode otherBytes.redacted)
        exact .inr ⟨bytes, otherBytes, hbytes, hotherBytes, Bytes.redacted_eq_iff.mp hzeros⟩
      · -- digits of zeros would stand for something
        rw [redacted_eq_self (not_exists.mp hother)] at h
        exact absurd ⟨_, h ▸ stands_encode bytes.redacted⟩ hother
    · rw [redacted_eq_self (not_exists.mp htext)] at h
      by_cases hother : ∃ bytes, Stands other bytes
      · obtain ⟨otherBytes, hotherBytes⟩ := hother
        rw [hotherBytes.redacted_eq] at h
        exact absurd ⟨_, h ▸ stands_encode otherBytes.redacted⟩ htext
      · exact .inl (h.trans (redacted_eq_self (not_exists.mp hother)))
  · rintro (rfl | ⟨bytes, otherBytes, hbytes, hother, hlength⟩)
    · rfl
    · rw [hbytes.redacted_eq, hother.redacted_eq, Bytes.redacted_eq_iff.mpr hlength]

/-- Arguments that may be missing are both missing, or redact to the same. -/
theorem rel_of_map_redacted_eq {text other : Option String}
    (h : text.map redacted = other.map redacted) :
    Option.Rel (fun text other => redacted text = redacted other) text other := by
  cases text <;> cases other <;> simp only [Option.map_some, Option.map_none, reduceCtorEq,
    Option.some.injEq] at h
  · exact .none
  · exact .some h

end Hex

/-- Values that fill the same field redact to the same. -/
theorem Bytes.Exactly.redacted_eq {size : Nat} (value other : Bytes.Exactly size) :
    value.redacted = other.redacted := by
  rw [Exactly.redacted, Exactly.redacted, Exactly.mk.injEq, Bytes.redacted_eq_iff, value.length_eq,
    other.length_eq]

/-! ### Sessions alike -/

namespace Session

variable {α β γ δ : Type}

/-- Two sessions write the same, and both give up or have results that are related by `r`. -/
structure Alike (r : α → β → Prop) (session : Session α) (other : Session β) : Prop where
  /-- The same is written. -/
  outputs : session.outputs = other.outputs
  /-- Both give up, or have results that are related. -/
  result : Option.Rel r session.result other.result

variable {r : α → β → Prop} {s : γ → δ → Prop}

theorem Alike.pure {a : α} {b : β} (h : r a b) : Alike r (Pure.pure a) (Pure.pure b) :=
  ⟨rfl, .some h⟩

theorem Alike.fail (message : String) :
    Alike r (Session.fail message : Session α) (Session.fail message : Session β) :=
  ⟨rfl, .none⟩

theorem Alike.refl {r : α → α → Prop} (hr : ∀ a, r a a) (session : Session α) :
    Alike r session session := by
  refine ⟨rfl, ?_⟩
  cases session.result with
  | none => exact .none
  | some a => exact .some (hr a)

theorem Alike.ofLogged {logged : Logged α} {other : Logged β} (hvalue : r logged.value other.value)
    (hevents : logged.events = other.events) :
    Alike r (Session.ofLogged logged) (Session.ofLogged other) :=
  ⟨congrArg (List.map Output.note) hevents, .some hvalue⟩

/-- **Sessions that go on alike are alike.** -/
theorem Alike.bind {session : Session α} {other : Session β} {next : α → Session γ}
    {otherNext : β → Session δ} (h : Alike r session other)
    (hnext : ∀ a b, r a b → Alike s (next a) (otherNext b)) :
    Alike s (session >>= next) (other >>= otherNext) := by
  obtain ⟨result, outputs⟩ := session
  obtain ⟨otherResult, otherOutputs⟩ := other
  obtain ⟨rfl, hresult⟩ := h
  cases hresult with
  | none => exact ⟨rfl, .none⟩
  | some hrelated =>
    have hrest := hnext _ _ hrelated
    exact ⟨congrArg (outputs ++ ·) hrest.outputs, hrest.result⟩

end Session

/-- **A hexadecimal argument**: lengths decide. -/
theorem Session.Alike.decodeArgument (name : String) {text other : String}
    (h : Hex.redacted text = Hex.redacted other) :
    Session.Alike (fun bytes otherBytes => bytes.length = otherBytes.length)
      (TokenConfig.decodeArgument name text) (TokenConfig.decodeArgument name other) := by
  have hread : ∀ {text bytes}, Hex.Stands text bytes →
      TokenConfig.decodeArgument name text = Pure.pure bytes :=
    fun hstands => (Session.Reads.decodeArgument name _ _ []).mpr ⟨hstands, rfl⟩
  rcases Hex.redacted_eq_iff.mp h with rfl | ⟨bytes, otherBytes, hbytes, hother, hlength⟩
  · exact .refl (fun _ => by rfl) _
  · rw [hread hbytes, hread hother]
    exact .pure hlength

namespace Otp

/-! ### The arguments of the subcommand -/

/-- Zeros in place of the digits of a credential. -/
def Preset.redacted : Preset → Preset
  | .yubicoOtp publicId privateId key generate =>
    .yubicoOtp (Hex.redacted publicId) (privateId.map Hex.redacted) (key.map Hex.redacted) generate
  | .hmacSha1 key generate touch => .hmacSha1 (key.map Hex.redacted) generate touch
  | .hotp key generate eightDigits => .hotp (key.map Hex.redacted) generate eightDigits
  | .staticPassword scanCodes => .staticPassword (Hex.redacted scanCodes)
  | .staticTicket fixed uid key =>
    .staticTicket (Hex.redacted fixed) (Hex.redacted uid) (Hex.redacted key)
  | .update => .update

/-- Zeros in place of the digits of everything that is given in hexadecimal. -/
def Arguments.redacted (arguments : Arguments) : Arguments where
  slot := arguments.slot
  accessCode := arguments.accessCode.map Hex.redacted
  currentAccessCode := arguments.currentAccessCode.map Hex.redacted
  preset := arguments.preset.redacted

/-! ### The credential -/

theorem alike_exactArgument (size : Nat) (name : String) {text other : String}
    (h : Hex.redacted text = Hex.redacted other) :
    Session.Alike (fun value otherValue => value.redacted = otherValue.redacted)
      (exactArgument size name text) (exactArgument size name other) := by
  refine (Session.Alike.decodeArgument name h).bind fun bytes otherBytes hlength => ?_
  rw [Bytes.Exactly.ofBytes?, Bytes.Exactly.ofBytes?]
  by_cases hsize : otherBytes.length = size
  · rw [dif_pos hsize, dif_pos (hlength.trans hsize)]
    exact .pure (Bytes.Exactly.redacted_eq _ _)
  · rw [dif_neg hsize, dif_neg (hlength ▸ hsize), hlength]
    exact .refl (fun _ => by rfl) _

variable {surroundings : Surroundings}

theorem alike_secret (flag : String) (start size : Nat) {text other : Option String}
    (h : text.map Hex.redacted = other.map Hex.redacted) :
    Session.Alike (fun value otherValue => value.redacted = otherValue.redacted)
      (secret surroundings flag start size text false)
      (secret surroundings flag start size other false) := by
  cases Hex.rel_of_map_redacted_eq h with
  | none => exact .refl (fun _ => by rfl) _
  | some hgiven =>
    simp only [secret, given, pure_bind]
    exact alike_exactArgument size flag hgiven

theorem alike_hmacKey {text other : Option String}
    (h : text.map Hex.redacted = other.map Hex.redacted) :
    Session.Alike (fun bytes otherBytes => bytes.length = otherBytes.length)
      (hmacKey surroundings text false) (hmacKey surroundings other false) := by
  cases Hex.rel_of_map_redacted_eq h with
  | none => exact .refl (fun _ => by rfl) _
  | some hgiven =>
    simp only [hmacKey, given, pure_bind]
    exact .decodeArgument "key" hgiven

/-- **Presets that redact to the same** become credentials that do. -/
theorem alike_credential {preset other : Preset} (hgiven : preset.generates = false)
    (h : preset.redacted = other.redacted) :
    Session.Alike (fun made otherMade => made.redacted = otherMade.redacted)
      (credential surroundings preset) (credential surroundings other) := by
  cases preset <;> cases other <;> simp only [Preset.redacted, reduceCtorEq,
    Preset.yubicoOtp.injEq, Preset.hmacSha1.injEq, Preset.hotp.injEq, Preset.staticPassword.injEq,
    Preset.staticTicket.injEq] at h
  case yubicoOtp.yubicoOtp =>
    obtain ⟨hpublic, hprivate, hkey, rfl⟩ := h
    obtain rfl := hgiven
    refine (Session.Alike.decodeArgument _ hpublic).bind fun _ _ hpublicId =>
      (alike_secret _ _ _ hprivate).bind fun _ _ hprivateId =>
        (alike_secret _ _ _ hkey).bind fun _ _ hmade => .pure ?_
    rw [Credential.redacted, Bytes.redacted_eq_iff.mpr hpublicId, hprivateId, hmade]
    rfl
  case hmacSha1.hmacSha1 =>
    obtain ⟨hkey, rfl, rfl⟩ := h
    obtain rfl := hgiven
    refine (alike_hmacKey hkey).bind fun _ _ hmade => .pure ?_
    rw [Credential.redacted, Bytes.redacted_eq_iff.mpr hmade]
    rfl
  case hotp.hotp =>
    obtain ⟨hkey, rfl, rfl⟩ := h
    obtain rfl := hgiven
    refine (alike_hmacKey hkey).bind fun _ _ hmade => .pure ?_
    rw [Credential.redacted, Bytes.redacted_eq_iff.mpr hmade]
    rfl
  case staticPassword.staticPassword =>
    refine (Session.Alike.decodeArgument _ h).bind fun _ _ hscan => .pure ?_
    rw [Credential.redacted, Bytes.redacted_eq_iff.mpr hscan]
    rfl
  case staticTicket.staticTicket =>
    obtain ⟨hfixed, huid, hkey⟩ := h
    refine (alike_exactArgument _ _ huid).bind fun _ _ hvalue =>
      (alike_exactArgument _ _ hkey).bind fun _ _ hmade =>
        (Session.Alike.decodeArgument _ hfixed).bind fun _ _ hbytes => .pure ?_
    rw [Credential.redacted, Bytes.redacted_eq_iff.mpr hbytes, hvalue, hmade]
    rfl
  case update.update => exact .pure rfl

/-! ### The configuration -/

theorem alike_configuration {made other : Credential} (h : made.redacted = other.redacted) :
    Session.Alike (fun config otherConfig => config.redacted = otherConfig.redacted)
      (configuration made) (configuration other) := by
  rcases SlotConfiguration.ofCredential_alike h with
    ⟨hrefused, hother⟩ | ⟨configured, otherConfigured, hok, hother, hvalue, hevents⟩
  · rw [configuration, configuration, hrefused, hother]
    exact .fail _
  · rw [configuration, configuration, hok, hother]
    exact .ofLogged hvalue hevents

theorem alike_codeArgument (strict : Bool) (field : Field) {text other : String}
    (h : Hex.redacted text = Hex.redacted other) :
    Session.Alike (fun code otherCode => code.length = otherCode.length)
      (codeArgument strict field text) (codeArgument strict field other) := by
  refine (Session.Alike.decodeArgument _ h).bind fun code otherCode hlength => ?_
  rw [hlength]
  by_cases hfits : otherCode.length ≤ field.size
  · rw [if_pos hfits, if_pos hfits]
    exact .pure hlength
  · rw [if_neg hfits, if_neg hfits]
    cases strict with
    | true => exact .fail _
    | false => exact ⟨rfl, .some hlength⟩

/-- **A configuration with an access code**, if one is given. -/
theorem alike_withCode (strict : Bool) (field : Field)
    {adjustment : Bytes → SlotConfiguration.Adjustment}
    (hadjustment : ∀ code, (adjustment code).redacted = adjustment code.redacted)
    {text other : Option String} (h : text.map Hex.redacted = other.map Hex.redacted)
    {config otherConfig : SlotConfiguration} (hconfig : config.redacted = otherConfig.redacted) :
    Session.Alike (fun config otherConfig => config.redacted = otherConfig.redacted)
      (withCode strict field adjustment text config)
      (withCode strict field adjustment other otherConfig) := by
  cases Hex.rel_of_map_redacted_eq h with
  | none => exact .pure hconfig
  | some hgiven =>
    refine (alike_codeArgument strict field hgiven).bind fun code otherCode hlength => ?_
    have hsame : (adjustment code).redacted = (adjustment otherCode).redacted := by
      rw [hadjustment, Bytes.redacted_eq_iff.mpr hlength, hadjustment]
    refine .ofLogged ?_ ?_
    · rw [SlotConfiguration.redacted_adjust, hconfig, hsame, ← SlotConfiguration.redacted_adjust]
    · rw [← SlotConfiguration.events_adjust_redacted, hconfig, hsame,
        SlotConfiguration.events_adjust_redacted]

/-- **Arguments that redact to the same** are taken or refused with the same words, and become
configurations that redact to the same. -/
theorem alike_prepared (strict : Bool) {arguments other : Arguments}
    (hgiven : arguments.preset.generates = false) (h : arguments.redacted = other.redacted) :
    Session.Alike (fun config otherConfig => config.redacted = otherConfig.redacted)
      (prepared surroundings strict arguments) (prepared surroundings strict other) := by
  obtain ⟨hslot, hcode, hcurrent, hpreset⟩ := Arguments.mk.inj h
  refine (alike_credential hgiven hpreset).bind fun made otherMade hmade =>
    (alike_configuration hmade).bind fun config otherConfig hconfig => ?_
  have hdescription : config.description = otherConfig.description := by
    rw [← config.description_redacted, hconfig, otherConfig.description_redacted]
  rw [hslot, hdescription]
  exact (Session.Alike.refl (fun _ => by rfl) _).bind fun _ _ _ =>
    (alike_withCode strict _ (fun _ => rfl) hcode hconfig).bind fun _ _ hadjusted =>
      alike_withCode strict _ (fun _ => rfl) hcurrent hadjusted

end Otp

end TokenConfig
