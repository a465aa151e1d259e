import OtaUpgrade.Bytes

/-!
How a stray character is shown in a message: between single quotes, with the escapes a reader
needs to see it. The characters here are those of codes 0 to 255.
-/
namespace OtaUpgrade.Text

/-- Codes that leave no mark of their own on paper: the control characters, the no-break space
and the soft hyphen. -/
def isInvisible (code : Nat) : Bool :=
  code < 0x20 || (0x7f ≤ code && code ≤ 0xa0) || code == 0xad

/-- The character between single quotes; a quote, a backslash and what cannot be seen are
escaped. -/
def quoted (b : UInt8) : String :=
  let body :=
    match b.toNat with
    | 0 => "\\0"
    | 9 => "\\t"
    | 10 => "\\n"
    | 13 => "\\r"
    | 39 => "\\'"
    | 92 => "\\\\"
    | code =>
      if isInvisible code then
        "\\u\x7b" ++ String.ofList (Nat.toDigits 16 code) ++ "\x7d"
      else
        String.singleton (Char.ofNat code)
  "'" ++ body ++ "'"

end OtaUpgrade.Text
