import ScratchEditor.Text.Utf8
import ScratchEditor.Shell.Arithmetic

/-!
# Printing from shell scripts

Texts are printed with escapes for bytes that cannot be typed, and formatted
values are put into the places that a format leaves for them.  A format is used
again for the values that are left over.

Main definitions:

- `Printing.echo`: some texts in a line.
- `Printing.format`: values in a format.
-/

namespace ScratchEditor

namespace Printing

/-! ## Escapes -/

/-- An octal digit. -/
def octalDigit? (c : Char) : Option Nat :=
  if '0' ≤ c ∧ c ≤ '7' then some (c.toNat - '0'.toNat) else none

/-- The value of at most some octal digits, and what follows them. -/
def readOctal : Nat → Nat → Text → Nat × Text
  | 0, value, text => (value, text)
  | _ + 1, value, [] => (value, [])
  | count + 1, value, c :: rest =>
    match octalDigit? c with
    | some digit => readOctal count (value * 8 + digit) rest
    | none => (value, c :: rest)

/-- The bytes of an escape behind its backslash, and what follows it. -/
def escape : Text → Bytes × Text
  | 'a' :: rest => ([7], rest)
  | 'b' :: rest => ([8], rest)
  | 'e' :: rest => ([27], rest)
  | 'f' :: rest => ([12], rest)
  | 'n' :: rest => ([10], rest)
  | 'r' :: rest => ([13], rest)
  | 't' :: rest => ([9], rest)
  | 'v' :: rest => ([11], rest)
  | '\\' :: rest => ([92], rest)
  | text =>
    match readOctal 3 0 text with
    | (value, rest) =>
      if rest.length = text.length then ([92], text) else ([UInt8.ofNat value], rest)

/-- The bytes of a text with escapes, and whether one of them ends all printing; a zero may stand
before the octal digits of an escape. -/
def unescapeFrom : Nat → Text → Bytes × Bool
  | 0, _ => ([], false)
  | _ + 1, [] => ([], false)
  | fuel + 1, c :: rest =>
    if c = '\\' then
      match rest with
      | 'c' :: _ => ([], true)
      | _ =>
        let digits :=
          match rest with
          | '0' :: d :: more => if (octalDigit? d).isSome then d :: more else rest
          | _ => rest
        let (bytes, rest) := escape digits
        let (more, ends) := unescapeFrom fuel rest
        (bytes ++ more, ends)
    else
      let (more, ends) := unescapeFrom fuel rest
      (Utf8.encodeChar c ++ more, ends)

/-- The bytes of a text with escapes, and whether one of them ends all printing. -/
def unescape (text : Text) : Bytes × Bool :=
  unescapeFrom text.length text

/-- Texts with blanks between them, and a line end unless the first one asks for none. -/
def echo (arguments : List Text) : Bytes :=
  let (closing, arguments) : Bytes × List Text :=
    match arguments with
    | ['-', 'n'] :: rest => ([], rest)
    | _ => ([10], arguments)
  let (bytes, ends) := unescape ([' '].intercalate arguments)
  if ends then bytes else bytes ++ closing

/-- Texts with blanks between them, and a line end unless the first one asks for none; escapes count
only if the first one asks for it. -/
def plainEcho (arguments : List Text) : Bytes :=
  match arguments with
  | ['-', 'n'] :: rest => Utf8.encode ([' '].intercalate rest)
  | ['-', 'e'] :: rest => echo rest
  | _ => Utf8.encode ([' '].intercalate arguments ++ ['\n'])

/-! ## Formats -/

/-- How a value is laid out. -/
structure Layout where
  flags : Text
  width : Nat
  precision : Option Nat

/-- A place of a format: bytes that stand for themselves, or a value. -/
inductive FormatPart
  | bytes (bytes : Bytes)
  | value (layout : Layout) (directive : Char)

/-- The number at the beginning of a text. -/
def leadingNumber (text : Text) : Nat × Text :=
  let digits := text.takeWhile Char.isDigit
  (digits.foldl (fun value c => value * 10 + (c.toNat - '0'.toNat)) 0, text.drop digits.length)

/-- The directives that stand for values. -/
def isDirective (c : Char) : Bool :=
  "bcdiosuxX".toList.contains c

/-- A value behind its percent sign. -/
def directive? (text : Text) : Option (FormatPart × Text) :=
  let flags := text.takeWhile "#-+ 0".toList.contains
  let (width, rest) := leadingNumber (text.drop flags.length)
  let (precision, rest) : Option Nat × Text :=
    match rest with
    | '.' :: rest =>
      let (precision, rest) := leadingNumber rest
      (some precision, rest)
    | _ => (none, rest)
  match rest with
  | c :: rest => if isDirective c then some (.value ⟨flags, width, precision⟩ c, rest) else none
  | [] => none

/-- The parts of a format up to one that cannot be understood, and that one. -/
def partsFrom : Nat → Text → List FormatPart × Option Text
  | 0, _ => ([], none)
  | _ + 1, [] => ([], none)
  | fuel + 1, c :: rest =>
    let (part, rest) : Option FormatPart × Text :=
      if c = '\\' then
        let (bytes, rest) := escape rest
        (some (.bytes bytes), rest)
      else if c = '%' then
        match rest with
        | '%' :: rest => (some (.bytes [37]), rest)
        | _ =>
          match directive? rest with
          | some (part, rest) => (some part, rest)
          | none => (none, rest)
      else (some (.bytes (Utf8.encodeChar c)), rest)
    match part with
    | none => ([], some ('%' :: rest.take 1))
    | some part =>
      let (parts, fault) := partsFrom fuel rest
      (part :: parts, fault)

/-! ## Values -/

/-- Bytes filled up to a width, on the side that the layout asks for. -/
def pad (layout : Layout) (bytes : Bytes) : Bytes :=
  let filling := List.replicate (layout.width - bytes.length) (32 : UInt8)
  if layout.flags.contains '-' then bytes ++ filling else filling ++ bytes

/-- What is wrong with a value that should be a number. -/
inductive NumberFault
  | notANumber
  /-- Something follows the number. -/
  | notWholly
deriving DecidableEq

/-- How a fault is worded. -/
def NumberFault.words : NumberFault → String
  | .notANumber => "expected numeric value"
  | .notWholly => "not completely converted"

/-- The number that digits stand for, and what is wrong with them. -/
def magnitude (digits : Text) : Int × Option NumberFault :=
  match Arithmetic.constant? digits with
  | some n => (n, none)
  | none =>
    let (n, rest) := leadingNumber digits
    (Int.ofNat n, some (if rest.length < digits.length then .notWholly else .notANumber))

/-- The integer that a value stands for, and what is wrong with it. -/
def integer (value : Text) : Int × Option NumberFault :=
  match value with
  | [] => (0, none)
  | '\'' :: c :: _ => (Int.ofNat c.toNat, none)
  | '"' :: c :: _ => (Int.ofNat c.toNat, none)
  | '-' :: digits =>
    let (n, fault) := magnitude digits
    (-n, fault)
  | '+' :: digits => magnitude digits
  | digits => magnitude digits

/-- The digits of a number in a base, at least as many as the layout asks for. -/
def digits (base : Nat) (layout : Layout) (n : Nat) : Text :=
  let text := Nat.toDigits base n
  List.replicate (layout.precision.getD 1 - text.length) '0' ++ text

/-- A number with its sign, filled up with zeros or blanks. -/
def layNumber (layout : Layout) (sign digits : Text) : Bytes :=
  let zeros :=
    if layout.flags.contains '0' && !layout.flags.contains '-' && layout.precision.isNone then
      List.replicate (layout.width - (sign.length + digits.length)) '0'
    else []
  pad layout (Utf8.encode (sign ++ zeros ++ digits))

/-- The sign that is written before a number. -/
def signOf (layout : Layout) (value : Int) : Text :=
  if value < 0 then ['-']
  else if layout.flags.contains '+' then ['+']
  else if layout.flags.contains ' ' then [' ']
  else []

/-- The bytes of a value by its directive, what is wrong with it, and whether it ends all
printing. -/
def layValue (layout : Layout) (directive : Char) (value : Text) :
    Bytes × Option NumberFault × Bool :=
  let cut (bytes : Bytes) : Bytes :=
    match layout.precision with
    | some n => bytes.take n
    | none => bytes
  match directive with
  | 's' => (pad layout (cut (Utf8.encode value)), none, false)
  | 'b' =>
    let (bytes, ends) := unescape value
    (pad layout (cut bytes), none, ends)
  | 'c' => (pad layout ((Utf8.encode value).take 1), none, false)
  | _ =>
    let (n, fault) := integer value
    let bits := Arithmetic.bits n
    let bytes :=
      match directive with
      | 'o' => layNumber layout [] (digits 8 layout bits)
      | 'x' => layNumber layout [] (digits 16 layout bits)
      | 'X' => layNumber layout [] ((digits 16 layout bits).map Char.toUpper)
      | 'u' => layNumber layout [] (digits 10 layout bits)
      | _ => layNumber layout (signOf layout n) (digits 10 layout n.natAbs)
    (bytes, fault, false)

/-- What a format printed. -/
structure Printed where
  bytes : Bytes
  /-- The values that were not numbers where numbers were asked for. -/
  refused : List (Text × NumberFault)
  ends : Bool
  /-- The values left over. -/
  rest : List Text

/-- Puts values into the parts of a format; a missing value is empty. -/
def layParts : List FormatPart → List Text → Printed
  | [], values => ⟨[], [], false, values⟩
  | .bytes bytes :: parts, values =>
    let more := layParts parts values
    { more with bytes := bytes ++ more.bytes }
  | .value layout directive :: parts, values =>
    let value := values.head?.getD []
    let (bytes, fault, ends) := layValue layout directive value
    if ends then ⟨bytes, [], true, []⟩
    else
      let more := layParts parts values.tail
      { more with
        bytes := bytes ++ more.bytes
        refused := (fault.map (value, ·)).toList ++ more.refused }

/-- Uses a format until all values are printed; one without places is used once. -/
def layAll (parts : List FormatPart) : Nat → List Text → Printed
  | 0, values => ⟨[], [], false, values⟩
  | fuel + 1, values =>
    let once := layParts parts values
    if once.ends || once.rest.isEmpty || once.rest.length = values.length then once
    else
      let more := layAll parts fuel once.rest
      { more with bytes := once.bytes ++ more.bytes, refused := once.refused ++ more.refused }

/-- What a format and values print, the values that were refused, and what of the format was not
understood. -/
def format (pattern : Text) (values : List Text) :
    Bytes × List (Text × NumberFault) × Option Text :=
  let (parts, fault) := partsFrom pattern.length pattern
  let printed := layAll parts (values.length + 1) values
  (printed.bytes, printed.refused, fault)

end Printing

end ScratchEditor
