import TokenConfig.Version

/-!
# Firmware that reports wrong values

Some firmware versions answer with values that are known to be wrong. Each
`TokenConfig.Correction` names one of these faults, tells the versions that have it, and is worded
for the log. The corrections are tried in the order of `TokenConfig.Correction.all`.
-/

namespace TokenConfig

/-- A known fault of a response, and what is done about it. -/
inductive Correction where
  /-- The capabilities supported over USB are missing, and are the ones of that version. -/
  | supportedMissing
  /-- The capabilities enabled over USB are wrong, and are not used. -/
  | enabledWrong
deriving DecidableEq

namespace Correction

/-- The corrections in the order they are tried. -/
def all : List Correction :=
  [.supportedMissing, .enabledWrong]

/-- Whether a firmware version has the fault. -/
def applies (version : Version) : Correction → Bool
  | .supportedMissing => version == ⟨4, 2, 4⟩
  | .enabledWrong => version.major == 4

/-- The wording of a fault. -/
def description : Correction → String
  | .supportedMissing => "4.2.4 does not report supported capabilities"
  | .enabledWrong => "4.x reports enabled USB capabilities incorrectly"

/-- The faults of a firmware version, in the order they are corrected. -/
def ofVersion (version : Version) : List Correction :=
  all.filter (applies version)

end Correction

end TokenConfig
