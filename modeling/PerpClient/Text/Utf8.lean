/-!
# Reading UTF-8 with replacement

Bytes are read as UTF-8, and each maximal piece that cannot begin a valid sequence becomes one
replacement character `U+FFFD`, as the Unicode standard recommends: a lead byte whose sequence
breaks off is replaced together with the continuation bytes already read, and reading goes on at
the byte that broke it off. A sequence cut short by the end of the bytes is one replacement.

Valid sequences are the shortest forms of scalar values: the second byte of a three- or
four-byte sequence is range-checked so that overlong forms, surrogates and values above
`U+10FFFF` are refused.
-/

namespace PerpClient.Utf8

/-- The replacement character. -/
def replacement : Char := '�'

/-- A continuation byte: `10xxxxxx`. -/
def isContinuation (b : UInt8) : Bool := 0x80 ≤ b && b ≤ 0xBF

/-- The second byte may follow this lead byte of a three-byte sequence. -/
def secondOfThree (lead b : UInt8) : Bool :=
  if lead = 0xE0 then 0xA0 ≤ b && b ≤ 0xBF
  else if lead = 0xED then 0x80 ≤ b && b ≤ 0x9F
  else isContinuation b

/-- The second byte may follow this lead byte of a four-byte sequence. -/
def secondOfFour (lead b : UInt8) : Bool :=
  if lead = 0xF0 then 0x90 ≤ b && b ≤ 0xBF
  else if lead = 0xF4 then 0x80 ≤ b && b ≤ 0x8F
  else isContinuation b

/-- The low six bits of a continuation byte. -/
def low6 (b : UInt8) : Nat := (b &&& 0x3F).toNat

/-- Decodes bytes, replacing each maximal invalid piece by `U+FFFD`. -/
def decodeLossy (bs : List UInt8) : List Char :=
  match bs with
  | [] => []
  | b :: rest =>
    if b < 0x80 then Char.ofNat b.toNat :: decodeLossy rest
    else if 0xC2 ≤ b && b ≤ 0xDF then
      match h1 : rest with
      | [] => [replacement]
      | c :: rest' =>
        if isContinuation c then
          Char.ofNat ((b &&& 0x1F).toNat * 64 + low6 c) :: decodeLossy rest'
        else replacement :: decodeLossy rest
    else if 0xE0 ≤ b && b ≤ 0xEF then
      match h1 : rest with
      | [] => [replacement]
      | c1 :: rest1 =>
        if secondOfThree b c1 then
          match h2 : rest1 with
          | [] => [replacement]
          | c2 :: rest2 =>
            if isContinuation c2 then
              Char.ofNat ((b &&& 0x0F).toNat * 4096 + low6 c1 * 64 + low6 c2) ::
                decodeLossy rest2
            else replacement :: decodeLossy rest1
        else replacement :: decodeLossy rest
    else if 0xF0 ≤ b && b ≤ 0xF4 then
      match h1 : rest with
      | [] => [replacement]
      | c1 :: rest1 =>
        if secondOfFour b c1 then
          match h2 : rest1 with
          | [] => [replacement]
          | c2 :: rest2 =>
            if isContinuation c2 then
              match h3 : rest2 with
              | [] => [replacement]
              | c3 :: rest3 =>
                if isContinuation c3 then
                  Char.ofNat ((b &&& 0x07).toNat * 262144 + low6 c1 * 4096 + low6 c2 * 64 +
                    low6 c3) :: decodeLossy rest3
                else replacement :: decodeLossy rest2
            else replacement :: decodeLossy rest1
        else replacement :: decodeLossy rest
    else replacement :: decodeLossy rest
termination_by bs.length
decreasing_by all_goals (subst_vars; simp; try omega)

end PerpClient.Utf8
