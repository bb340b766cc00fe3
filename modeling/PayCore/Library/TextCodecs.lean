import Mathlib.Data.List.Basic

/- Bytes read as text, as Python's codecs do with the error handler "surrogatepass". A text is the
   list of its code points, surrogates among them; a byte is its value. -/
namespace TextCodecs

abbrev Text := List Nat

def isHigh (c : Nat) : Bool := 0xD800 ≤ c && c ≤ 0xDBFF

def isLow (c : Nat) : Bool := 0xDC00 ≤ c && c ≤ 0xDFFF

def joined (high low : Nat) : Nat := 0x10000 + (high - 0xD800) * 0x400 + (low - 0xDC00)

/-- Surrogates that follow each other become one code point, where both may be joined. -/
def pairUp : List (Bool × Nat) → Text
  | (pairs, c) :: (pairs', d) :: rest =>
    if pairs && pairs' && isHigh c && isLow d then joined c d :: pairUp rest
    else c :: pairUp ((pairs', d) :: rest)
  | [(_, c)] => [c]
  | [] => []

def continues (b : Nat) : Bool := 0x80 ≤ b && b ≤ 0xBF

/-- The shortest form is the only one, and 0x10FFFF the last code point. -/
def utf8 : List Nat → Option Text
  | [] => some []
  | a :: rest =>
    if a < 0x80 then (utf8 rest).map (a :: ·) else
    match rest with
    | [] => none
    | b :: rest =>
      if !continues b then none
      else if 0xC2 ≤ a && a ≤ 0xDF then (utf8 rest).map ((a % 0x20 * 0x40 + b % 0x40) :: ·) else
      match rest with
      | [] => none
      | c :: rest =>
        if !continues c then none
        else if a = 0xE0 && 0xA0 ≤ b || 0xE1 ≤ a && a ≤ 0xEF then
          (utf8 rest).map ((a % 0x10 * 0x1000 + b % 0x40 * 0x40 + c % 0x40) :: ·) else
        match rest with
        | [] => none
        | d :: rest =>
          if !continues d then none
          else if a = 0xF0 && 0x90 ≤ b || 0xF1 ≤ a && a ≤ 0xF3 || a = 0xF4 && b ≤ 0x8F then
            (utf8 rest).map ((a % 0x08 * 0x40000 + b % 0x40 * 0x1000 + c % 0x40 * 0x40 + d % 0x40) :: ·)
          else none

def utf16 (bigEndian : Bool) (bytes : List Nat) : Option Text :=
  (units bytes).map fun units => pairUp (units.map fun unit => (true, unit))
where
  units : List Nat → Option (List Nat)
    | a :: b :: rest => (units rest).map ((if bigEndian then a * 0x100 + b else b * 0x100 + a) :: ·)
    | [_] => none
    | [] => some []

def utf32 (bigEndian : Bool) : List Nat → Option Text
  | a :: b :: c :: d :: rest =>
    let c := if bigEndian then ((a * 0x100 + b) * 0x100 + c) * 0x100 + d
      else ((d * 0x100 + c) * 0x100 + b) * 0x100 + a
    if c ≤ 0x10FFFF then (utf32 bigEndian rest).map (c :: ·) else none
  | [] => some []
  | _ => none

/-- The codecs named "utf-16" and "utf-32" take the byte order from the mark at the start. -/
inductive Encoding where
  | utf8 | utf8Sig | utf16 | utf16be | utf16le | utf32 | utf32be | utf32le
  deriving DecidableEq, Repr

def bomUtf8 : List Nat := [0xEF, 0xBB, 0xBF]
def bomUtf16be : List Nat := [0xFE, 0xFF]
def bomUtf16le : List Nat := [0xFF, 0xFE]
def bomUtf32be : List Nat := [0x00, 0x00, 0xFE, 0xFF]
def bomUtf32le : List Nat := [0xFF, 0xFE, 0x00, 0x00]

def unmarked (mark bytes : List Nat) : List Nat := (bytes.dropPrefix? mark).getD bytes

/-- `bytes.decode(encoding, "surrogatepass")`, none for UnicodeDecodeError -/
def decode (bytes : List Nat) : Encoding → Option Text
  | .utf8 => utf8 bytes
  | .utf8Sig => utf8 (unmarked bomUtf8 bytes)
  | .utf16 =>
    match bytes.dropPrefix? bomUtf16be with
    | some rest => utf16 true rest
    | none => utf16 false (unmarked bomUtf16le bytes)
  | .utf16be => utf16 true bytes
  | .utf16le => utf16 false bytes
  | .utf32 =>
    match bytes.dropPrefix? bomUtf32be with
    | some rest => utf32 true rest
    | none => utf32 false (unmarked bomUtf32le bytes)
  | .utf32be => utf32 true bytes
  | .utf32le => utf32 false bytes

end TextCodecs
