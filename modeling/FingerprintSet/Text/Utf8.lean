/-!
# UTF-8

Characters as bytes and back.  Decoding accepts exactly the shortest forms of characters.
-/

namespace FingerprintSet.Text

/-- The bytes of a text. -/
def utf8Encode (text : List Char) : List UInt8 :=
  text.flatMap String.utf8EncodeChar

/-- The payload of a continuation byte. -/
def continuation? (byte : UInt8) : Option Nat :=
  if 0x80 ≤ byte ∧ byte < 0xc0 then some (byte.toNat - 0x80) else none

/-- The character with a number, if there is one and it is not below `least`. -/
def charFrom? (least n : Nat) : Option Char :=
  if h : n.isValidChar then
    if least ≤ n then some (Char.ofNatAux n h) else none
  else
    none

/-- The text that bytes spell. -/
def utf8Decode : List UInt8 → Option (List Char)
  | [] => some []
  | a :: rest =>
      if a < 0x80 then do
        let c ← charFrom? 0 a.toNat
        return c :: (← utf8Decode rest)
      else if a < 0xc0 then
        none
      else
        match rest with
        | [] => none
        | b :: rest =>
            if a < 0xe0 then do
              let c ← charFrom? 0x80 ((a.toNat - 0xc0) * 64 + (← continuation? b))
              return c :: (← utf8Decode rest)
            else
              match rest with
              | [] => none
              | c :: rest =>
                  if a < 0xf0 then do
                    let n := (a.toNat - 0xe0) * 4096 + (← continuation? b) * 64
                      + (← continuation? c)
                    let c ← charFrom? 0x800 n
                    return c :: (← utf8Decode rest)
                  else
                    match rest with
                    | [] => none
                    | d :: rest =>
                        if a < 0xf8 then do
                          let n := (a.toNat - 0xf0) * 262144 + (← continuation? b) * 4096
                            + (← continuation? c) * 64 + (← continuation? d)
                          let c ← charFrom? 0x10000 n
                          return c :: (← utf8Decode rest)
                        else
                          none

end FingerprintSet.Text
