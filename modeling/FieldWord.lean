import FieldWord.Bytes.Basic
import FieldWord.Bytes.Lemmas
import FieldWord.Felt
import FieldWord.Layout
import FieldWord.Limbs
import FieldWord.Literal.Error
import FieldWord.Literal.Reader
import FieldWord.Program
import FieldWord.Proofs.Arithmetic
import FieldWord.Proofs.Bits
import FieldWord.Proofs.Bounded
import FieldWord.Proofs.Bytes
import FieldWord.Proofs.Columns
import FieldWord.Proofs.Conversions
import FieldWord.Proofs.Decimal
import FieldWord.Proofs.Display
import FieldWord.Proofs.Division
import FieldWord.Proofs.Events
import FieldWord.Proofs.History
import FieldWord.Proofs.Limbs
import FieldWord.Proofs.Literal.Agreement
import FieldWord.Proofs.Literal.Faults
import FieldWord.Proofs.Literal.Grammar
import FieldWord.Proofs.Literal.Scan
import FieldWord.Proofs.Literal.Sign
import FieldWord.Proofs.Literal.Spelling
import FieldWord.Proofs.Negation
import FieldWord.Proofs.Numeral
import FieldWord.Proofs.Order
import FieldWord.Proofs.Program
import FieldWord.Proofs.Radix
import FieldWord.Proofs.RoundTrip
import FieldWord.Proofs.Views
import FieldWord.Proofs.Word256
import FieldWord.Radix
import FieldWord.Text.DefaultIgnorable
import FieldWord.Text.GraphemeExtend
import FieldWord.Text.Quoted
import FieldWord.Text.Shape
import FieldWord.Text.Unprintable
import FieldWord.Trace
import FieldWord.Value
import FieldWord.Word248
import FieldWord.Word256.Arith
import FieldWord.Word256.Basic
import FieldWord.Word256.Decimal
import FieldWord.Word256.Native
import FieldWord.Word256.Text
