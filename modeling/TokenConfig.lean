import TokenConfig.Main
import TokenConfig.Slot.Record
import TokenConfig.Proofs.Checksum.Register
import TokenConfig.Proofs.Checksum.Serial
import TokenConfig.Proofs.Checksum.Detection
import TokenConfig.Proofs.Slot.Layout
import TokenConfig.Proofs.Slot.Canonical
import TokenConfig.Proofs.Tlv.Grammar
import TokenConfig.Proofs.Tlv.Stream
import TokenConfig.Proofs.Device.Response
import TokenConfig.Proofs.Bytes.Digits
import TokenConfig.Proofs.Tlv.Written
import TokenConfig.Proofs.Device.Payload
import TokenConfig.Proofs.Tlv.WriteAll
import TokenConfig.Proofs.Device.ReadBack
import TokenConfig.Proofs.Device.LastValue
import TokenConfig.Proofs.Slot.Material
import TokenConfig.Proofs.Slot.Truncation
import TokenConfig.Proofs.Slot.Credential
import TokenConfig.Proofs.Slot.Switches
import TokenConfig.Proofs.Text.Pieces
import TokenConfig.Proofs.Text.Trimming
import TokenConfig.Proofs.Secrecy.Redaction
import TokenConfig.Proofs.Setting
import TokenConfig.Proofs.Secrecy.Calls
import TokenConfig.Proofs.Bytes.Hexadecimal
import TokenConfig.Proofs.CommandLine.Session
import TokenConfig.Proofs.CommandLine.Otp
import TokenConfig.Proofs.CommandLine.Record
import TokenConfig.Proofs.Text.Numeral
import TokenConfig.Proofs.CommandLine.Capabilities
import TokenConfig.Proofs.CommandLine.Info
import TokenConfig.Proofs.Checksum.Remainder
import TokenConfig.Proofs.Tlv.Shortest
import TokenConfig.Proofs.Secrecy.Arguments
import TokenConfig.Proofs.Secrecy.Reading
import TokenConfig.Proofs.Secrecy.Runs
import TokenConfig.Proofs.Tlv.PrefixCode
import TokenConfig.Proofs.Device.Numbers
import TokenConfig.Proofs.CommandLine.InfoLog
import TokenConfig.Proofs.Text.Shown
import TokenConfig.Proofs.Device.Words
import TokenConfig.Proofs.Slot.Notices
