import Collections.Bytes
import Collections.Log.Notice

/-!
# Masking what differs from run to run

Addresses, spans of time and identities of threads differ from one run to the next. In a text that
is to be compared they are masked, in this order: an address in brackets, a number of microseconds
in brackets, and the identity of a thread at the start of the text.
-/

set_option autoImplicit false

namespace Collections.Log

/-- Take a fixed text off the front. -/
def strip? (front text : Bytes) : Option Bytes :=
  if front.isPrefixOf text then some (text.drop front.length) else none

/-- Take a run of at least one byte of a class off the front. -/
def stripRun? (isIn : UInt8 → Bool) (text : Bytes) : Option Bytes :=
  if (text.takeWhile isIn).isEmpty then none else some (text.dropWhile isIn)

/-- The digits that addresses are written with: of letters, only small ones. -/
def isHexDigit (byte : UInt8) : Bool :=
  Bytes.isDigit byte || (97 ≤ byte && byte ≤ 102)

/-- What stands behind a bracketed address at the front. -/
def stripAddress? (text : Bytes) : Option Bytes := do
  strip? (Bytes.ofString "]") (← stripRun? isHexDigit (← strip? (Bytes.ofString "[0x") text))

/-- What stands behind a bracketed number of microseconds at the front. -/
def stripSpan? (text : Bytes) : Option Bytes := do
  let text ← strip? (Bytes.ofString "[") text
  let unsigned := (strip? (Bytes.ofString "-") text).getD text
  let rest ← strip? (Bytes.ofString " microsecond") (← stripRun? Bytes.isDigit unsigned)
  (strip? (Bytes.ofString "s]") rest).or (strip? (Bytes.ofString "]") rest)

/-- Put a mark in the place of everything that a recogniser takes off. The number bounds the rounds;
the length of the text is enough, as each round uses up a byte. -/
def maskWithin (recognise? : Bytes → Option Bytes) (mark : Bytes) : Nat → Bytes → Bytes
  | 0, text => text
  | _ + 1, [] => []
  | rounds + 1, byte :: rest =>
      match recognise? (byte :: rest) with
      | some behind => mark ++ maskWithin recognise? mark rounds behind
      | none => byte :: maskWithin recognise? mark rounds rest

def mask (recognise? : Bytes → Option Bytes) (mark : String) (text : Bytes) : Bytes :=
  maskWithin recognise? (Bytes.ofString mark) text.length text

/-- Mask the identity of a thread at the start. -/
def maskThread (text : Bytes) : Bytes :=
  let masked := do
    let rest ← strip? (Bytes.ofString "Thread ID [") text
    let behind ← strip? (Bytes.ofString "]") (rest.dropWhile (· != 93))
    return Bytes.ofString "Thread ID [ID]" ++ behind
  masked.getD text

/-- Mask all that differs from run to run. -/
def redact (text : Bytes) : Bytes :=
  maskThread (mask stripSpan? Notice.span (mask stripAddress? Notice.object text))

end Collections.Log
