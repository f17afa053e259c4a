import Restyle.Text.Quoted

/-!
Texts as bytes. Decoding is strict: the first sequence that is no character is the fault, with
the bytes it covers.
-/

namespace Restyle.Text

inductive Utf8Reason where
  | invalidStart
  | invalidContinuation
  | unexpectedEnd
deriving DecidableEq, Repr

def Utf8Reason.message : Utf8Reason → String
  | invalidStart => "invalid start byte"
  | invalidContinuation => "invalid continuation byte"
  | unexpectedEnd => "unexpected end of data"

/-- The bytes at `place`, `count` of them, are no character. -/
structure Utf8Fault where
  reason : Utf8Reason
  place : Nat
  count : Nat
  first : UInt8
deriving DecidableEq, Repr

def Utf8Fault.message (f : Utf8Fault) : String :=
  let where_ :=
    if f.count = 1 then
      s!"byte 0x{String.ofList (hexText 2 f.first.toNat)} in position {f.place}"
    else s!"bytes in position {f.place}-{f.place + f.count - 1}"
  s!"'utf-8' codec can't decode {where_}: {f.reason.message}"

def isContinuation (b : UInt8) : Bool := 0x80 ≤ b && b < 0xc0

/-- Whether `b` can follow `a` at the start of a sequence. This excludes overlong forms, halves
of surrogate pairs and numbers above the last code point. -/
def isSecond (a b : UInt8) : Bool :=
  isContinuation b &&
    (if a == 0xe0 then b ≥ 0xa0
     else if a == 0xed then b < 0xa0
     else if a == 0xf0 then b ≥ 0x90
     else if a == 0xf4 then b < 0x90
     else true)

def low6 (b : UInt8) : Nat := b.toNat % 64

/-- Decodes from the byte at `place` on, `done` being what stands before, backwards. -/
def decodeFrom (place : Nat) (done : List Char) : List UInt8 → Except Utf8Fault (List Char)
  | [] => .ok done.reverse
  | a :: rest =>
    let fault (reason : Utf8Reason) (count : Nat) : Except Utf8Fault (List Char) :=
      .error ⟨reason, place, count, a⟩
    if a < 0x80 then decodeFrom (place + 1) (Char.ofNat a.toNat :: done) rest
    else if a < 0xc2 ∨ a > 0xf4 then fault .invalidStart 1
    else if a < 0xe0 then
      match rest with
      | [] => fault .unexpectedEnd 1
      | b :: rest =>
        if isSecond a b then
          decodeFrom (place + 2) (Char.ofNat ((a.toNat - 0xc0) * 64 + low6 b) :: done) rest
        else fault .invalidContinuation 1
    else if a < 0xf0 then
      match rest with
      | [] => fault .unexpectedEnd 1
      | b :: rest =>
        if isSecond a b then
          match rest with
          | [] => fault .unexpectedEnd 2
          | c :: rest =>
            if isContinuation c then
              decodeFrom (place + 3)
                (Char.ofNat (((a.toNat - 0xe0) * 64 + low6 b) * 64 + low6 c) :: done) rest
            else fault .invalidContinuation 2
        else fault .invalidContinuation 1
    else
      match rest with
      | [] => fault .unexpectedEnd 1
      | b :: rest =>
        if isSecond a b then
          match rest with
          | [] => fault .unexpectedEnd 2
          | c :: rest =>
            if isContinuation c then
              match rest with
              | [] => fault .unexpectedEnd 3
              | d :: rest =>
                if isContinuation d then
                  decodeFrom (place + 4)
                    (Char.ofNat ((((a.toNat - 0xf0) * 64 + low6 b) * 64 + low6 c) * 64 + low6 d)
                      :: done) rest
                else fault .invalidContinuation 3
            else fault .invalidContinuation 2
        else fault .invalidContinuation 1
termination_by bytes => bytes.length

def decode (bytes : List UInt8) : Except Utf8Fault (List Char) := decodeFrom 0 [] bytes

def encode (s : List Char) : List UInt8 := s.flatMap String.utf8EncodeChar

/-- Every line end of the three common kinds becomes a newline. -/
def unifyNewlines : List Char → List Char
  | '\r' :: '\n' :: rest => '\n' :: unifyNewlines rest
  | '\r' :: rest => '\n' :: unifyNewlines rest
  | c :: rest => c :: unifyNewlines rest
  | [] => []

end Restyle.Text
