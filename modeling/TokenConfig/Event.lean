import TokenConfig.Bytes.Hex
import TokenConfig.Device.Correction
import TokenConfig.Setting.Source
import TokenConfig.Slot
import TokenConfig.Slot.Field
import TokenConfig.Slot.KeyMode
import TokenConfig.Version

/-!
# What is worth a line in the log

An operation that drops a part of its input, or works with a value that nobody gave, says so. What
it says is a `TokenConfig.Event`, whose parts are lengths, versions, flags and the like – never the
contents of an identifier, a key or a code. `TokenConfig.Event.level` tells how much an event
matters and `TokenConfig.Event.message` words it; `TokenConfig.Event.line` puts both into a line.

* `TokenConfig.Logged` is a value together with the events on the way to it.
-/

namespace TokenConfig

/-! ### Levels -/

/-- How much an event matters. -/
inductive Level where
  /-- Something failed. -/
  | error
  /-- Something that was given is not used. -/
  | warn
  /-- Something of note happened. -/
  | info
  /-- Something of interest to who looks for a fault. -/
  | debug
  /-- A step that can be followed. -/
  | trace
deriving DecidableEq

namespace Level

/-- The levels, those that matter most first. -/
def all : List Level :=
  [.error, .warn, .info, .debug, .trace]

/-- The name of a level. -/
def name : Level → String
  | .error => "ERROR"
  | .warn => "WARN"
  | .info => "INFO"
  | .debug => "DEBUG"
  | .trace => "TRACE"

/-- How far down the list of levels a level is. -/
def rank (level : Level) : Nat :=
  all.idxOf level

/-- Whether a log with the threshold `threshold` shows a level. -/
def within (threshold level : Level) : Bool :=
  level.rank ≤ threshold.rank

end Level

/-! ### Events -/

/-- The kinds of flags of which an update may change only some. -/
inductive RestrictedFlags where
  /-- The ticket flags. -/
  | ticket
  /-- The extended flags. -/
  | extended
deriving DecidableEq

/-- The name of a kind of flags in messages to people. -/
def RestrictedFlags.label : RestrictedFlags → String
  | .ticket => "ticket"
  | .extended => "extended"

/-- Something worth a line in the log. -/
inductive Event where
  /-- A value of `length` bytes was too long for its field. -/
  | valueCut (field : Field) (length : Nat)
  /-- Key material of `length` bytes was too long for its kind. -/
  | materialCut (mode : KeyMode) (length : Nat)
  /-- Flags that an update may not change were left out. -/
  | flagsDropped (kind : RestrictedFlags) (bits : BitVec 8)
  /-- A response has these tags. -/
  | responseTags (tags : List UInt32)
  /-- A version of `length` bytes was too short, so `fallback` is used. -/
  | versionIgnored (length : Nat) (fallback : Version)
  /-- A known fault of a firmware version was corrected. -/
  | corrected (version : Version) (correction : Correction)
  /-- A device configuration takes `length` bytes. -/
  | configEncoded (length : Nat)
  /-- The settings file was opened. -/
  | settingsRead (path : String)
  /-- The settings file decides on a setting. -/
  | settingFound (key : String)
  /-- A setting has a value. -/
  | settingResolved (key : String) (value : Bool) (source : Source)
  /-- A slot is to get the program that `description` shows. -/
  | programChosen (slot : Slot) (description : String)
deriving DecidableEq

namespace Event

/-- How much an event matters. -/
def level : Event → Level
  | .flagsDropped .. | .versionIgnored .. => .warn
  | .responseTags .. | .settingsRead .. => .trace
  | .valueCut .. | .materialCut .. | .corrected .. | .configEncoded .. | .settingFound ..
  | .settingResolved .. | .programChosen .. => .debug

/-- How much of something is left of how much. -/
def cut (length kept : Nat) : String :=
  " truncated from " ++ toString length ++ " to " ++ toString kept ++ " bytes"

/-- The wording of an event. -/
def message : Event → String
  | .valueCut field length => field.label ++ cut length field.size
  | .materialCut mode length => mode.label ++ " key material" ++ cut length mode.capacity
  | .flagsDropped kind bits =>
    "dropping " ++ kind.label ++ " flags " ++ Hex.marked 2 bits.toNat ++
      " not allowed in an update"
  | .responseTags tags =>
    "device info tags: [" ++ ", ".intercalate (tags.map fun tag => Hex.numeral 2 tag.toNat) ++ "]"
  | .versionIgnored length fallback =>
    "ignoring " ++ toString length ++ "-byte firmware version, using " ++ fallback.text
  | .corrected version correction => "firmware " ++ version.text ++ ": " ++ correction.description
  | .configEncoded length => "encoded " ++ toString length ++ "-byte device config"
  | .settingsRead path => "reading settings from " ++ path
  | .settingFound key => "setting " ++ key ++ " configured by administrator"
  | .settingResolved key value source =>
    key ++ ": " ++ toString value ++ " (" ++ source.label ++ ")"
  | .programChosen slot description => "slot " ++ slot.text ++ " preset: " ++ description

/-- An event as a line of a log. -/
def line (event : Event) : String :=
  event.level.name ++ " " ++ event.message

end Event

/-! ### Values with events -/

/-- A value, and the events on the way to it in their order. -/
structure Logged (α : Type) where
  /-- The value. -/
  value : α
  /-- The events. -/
  events : List Event

namespace Logged

variable {α β : Type}

instance : Monad Logged where
  pure a := ⟨a, []⟩
  bind x f := ⟨(f x.value).value, x.events ++ (f x.value).events⟩

/-- The event alone. -/
def note (event : Event) : Logged Unit :=
  ⟨(), [event]⟩

/-- The event, if `condition` holds. -/
def noteIf (condition : Bool) (event : Event) : Logged Unit :=
  ⟨(), if condition then [event] else []⟩

@[simp] theorem value_pure (a : α) : (pure a : Logged α).value = a := rfl

@[simp] theorem events_pure (a : α) : (pure a : Logged α).events = [] := rfl

@[simp] theorem value_bind (x : Logged α) (f : α → Logged β) :
    (x >>= f).value = (f x.value).value := rfl

@[simp] theorem events_bind (x : Logged α) (f : α → Logged β) :
    (x >>= f).events = x.events ++ (f x.value).events := rfl

instance : LawfulMonad Logged :=
  LawfulMonad.mk' Logged
    (by
      intro α ⟨value, events⟩
      simp [Functor.map])
    (fun _ _ => rfl)
    (by
      intro α β γ ⟨value, events⟩ f g
      simp [bind])

@[simp] theorem events_note (event : Event) : (note event).events = [event] := rfl

@[simp] theorem events_noteIf (condition : Bool) (event : Event) :
    (noteIf condition event).events = if condition then [event] else [] := rfl

end Logged

end TokenConfig
