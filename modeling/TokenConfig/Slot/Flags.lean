import TokenConfig.Flags

/-!
# The flag bytes of a record

A record has three flag bytes. *Ticket* flags say what is typed around a one-time password,
*configuration* flags say what the password is and how it is typed, and *extended* flags say who may
see the serial number and change the slot. Which meaning a configuration flag has depends on the
kind of credential, so that several names there share bits.

An update may change only few of the ticket and extended flags: those of
`TokenConfig.TicketFlags.updatable` and `TokenConfig.ExtendedFlags.updatable`.
-/

namespace TokenConfig

/-! ### Ticket flags -/

/-- The names of the ticket flags. -/
def ticketVocabulary : Vocabulary 8 where
  title := "TicketFlags"
  flags := [
    ⟨"TAB_FIRST", 0x01⟩,
    ⟨"APPEND_TAB1", 0x02⟩,
    ⟨"APPEND_TAB2", 0x04⟩,
    ⟨"APPEND_DELAY1", 0x08⟩,
    ⟨"APPEND_DELAY2", 0x10⟩,
    ⟨"APPEND_CR", 0x20⟩,
    ⟨"OATH_HOTP", 0x40⟩,
    ⟨"CHAL_RESP", 0x40⟩,
    ⟨"PROTECT_CFG2", 0x80⟩]

/-- What is typed around a one-time password. -/
abbrev TicketFlags := FlagWord ticketVocabulary

namespace TicketFlags

/-- Ends the output with a carriage return. -/
def appendCr : TicketFlags := ⟨0x20⟩

/-- Counts with every use of the slot, as OATH-HOTP does. -/
def oathHotp : TicketFlags := ⟨0x40⟩

/-- Answers challenges. The bit is that of `TokenConfig.TicketFlags.oathHotp`; the configuration
flags tell the two apart. -/
def challengeResponse : TicketFlags := ⟨0x40⟩

/-- The ticket flags that an update may change. -/
def updatable : TicketFlags := appendCr

end TicketFlags

/-! ### Configuration flags -/

/-- The names of the configuration flags: those of one-time passwords, of static passwords, of
OATH-HOTP and of challenge and response. -/
def configVocabulary : Vocabulary 8 where
  title := "ConfigFlags"
  flags := [
    ⟨"SEND_REF", 0x01⟩,
    ⟨"TICKET_FIRST", 0x02⟩,
    ⟨"PACING_10MS", 0x04⟩,
    ⟨"PACING_20MS", 0x08⟩,
    ⟨"ALLOW_HIDTRIG", 0x10⟩,
    ⟨"STATIC_TICKET", 0x20⟩,
    ⟨"SHORT_TICKET", 0x02⟩,
    ⟨"STRONG_PW1", 0x10⟩,
    ⟨"STRONG_PW2", 0x40⟩,
    ⟨"MAN_UPDATE", 0x80⟩,
    ⟨"OATH_HOTP8", 0x02⟩,
    ⟨"OATH_FIXED_MODHEX1", 0x10⟩,
    ⟨"OATH_FIXED_MODHEX2", 0x40⟩,
    ⟨"OATH_FIXED_MODHEX", 0x50⟩,
    ⟨"OATH_FIXED_MASK", 0x50⟩,
    ⟨"CHAL_MASK", 0x22⟩,
    ⟨"IS_CHAL_RESP", 0x20⟩,
    ⟨"CHAL_YUBICO", 0x20⟩,
    ⟨"CHAL_HMAC", 0x22⟩,
    ⟨"HMAC_LT64", 0x04⟩,
    ⟨"CHAL_BTN_TRIG", 0x08⟩]

/-- What a password is and how it is typed. -/
abbrev ConfigFlags := FlagWord configVocabulary

namespace ConfigFlags

/-- Types a password that never changes. -/
def staticTicket : ConfigFlags := ⟨0x20⟩

/-- Cuts a static password to the length of its scan codes. -/
def shortTicket : ConfigFlags := ⟨0x02⟩

/-- Gives eight digits instead of six. -/
def eightDigits : ConfigFlags := ⟨0x02⟩

/-- Answers challenges by HMAC-SHA1. -/
def challengeHmac : ConfigFlags := ⟨0x22⟩

/-- Takes challenges shorter than 64 bytes. -/
def shortChallenge : ConfigFlags := ⟨0x04⟩

/-- Asks for a touch before it answers a challenge. -/
def challengeTouch : ConfigFlags := ⟨0x08⟩

end ConfigFlags

/-! ### Extended flags -/

/-- The names of the extended flags. -/
def extendedVocabulary : Vocabulary 8 where
  title := "ExtendedFlags"
  flags := [
    ⟨"SERIAL_BTN_VISIBLE", 0x01⟩,
    ⟨"SERIAL_USB_VISIBLE", 0x02⟩,
    ⟨"SERIAL_API_VISIBLE", 0x04⟩,
    ⟨"USE_NUMERIC_KEYPAD", 0x08⟩,
    ⟨"FAST_TRIG", 0x10⟩,
    ⟨"ALLOW_UPDATE", 0x20⟩,
    ⟨"DORMANT", 0x40⟩]

/-- Who may see the serial number and change the slot. -/
abbrev ExtendedFlags := FlagWord extendedVocabulary

namespace ExtendedFlags

/-- Shows the serial number to programs. -/
def serialApiVisible : ExtendedFlags := ⟨0x04⟩

/-- Reacts to a touch at once when only the first slot is in use. -/
def fastTrigger : ExtendedFlags := ⟨0x10⟩

/-- Lets flags and access code be changed later. -/
def allowUpdate : ExtendedFlags := ⟨0x20⟩

/-- The extended flags that an update may change. -/
def updatable : ExtendedFlags := serialApiVisible.union allowUpdate

end ExtendedFlags

end TokenConfig
