import RegisterMap.Bus.Transfer
import RegisterMap.Main
import RegisterMap.Proofs.Bits.Grammar
import RegisterMap.Proofs.Bits.PositionSet
import RegisterMap.Proofs.Bits.Spread
import RegisterMap.Proofs.Bus.Dump
import RegisterMap.Proofs.Bus.Failure
import RegisterMap.Proofs.Bus.Restore
import RegisterMap.Proofs.Bus.Run
import RegisterMap.Proofs.Device.FieldOrder
import RegisterMap.Proofs.Device.Limits
import RegisterMap.Proofs.Device.Lookup
import RegisterMap.Proofs.Device.Window
import RegisterMap.Proofs.Device.WordOrder
import RegisterMap.Proofs.Draft.Faults
import RegisterMap.Proofs.Draft.Respelled
import RegisterMap.Proofs.Header.Getter
import RegisterMap.Proofs.Header.WordMacro
import RegisterMap.Proofs.Header.Setter
import RegisterMap.Proofs.Header.MakeMacro
import RegisterMap.Proofs.Header.Composition
import RegisterMap.Proofs.Header.BusMacro
import RegisterMap.Proofs.Header.Reference
import RegisterMap.Proofs.Header.Collision
import RegisterMap.Proofs.Header.Hygiene
import RegisterMap.Proofs.Header.Identifier
import RegisterMap.Proofs.Header.LabelScan
import RegisterMap.Proofs.Header.Lens
import RegisterMap.Proofs.Header.Lexer
import RegisterMap.Proofs.Header.OptionTable
import RegisterMap.Proofs.CommandLine.Failure
