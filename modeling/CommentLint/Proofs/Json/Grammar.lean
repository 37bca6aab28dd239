import CommentLint.Json.Reader

/-
  The grammar of JSON text.

  A text is spelled by its characters between quotes, a
  character by itself, by an escape of one letter, by a code
  unit or by a surrogate pair.  A lone surrogate spells no
  character.

  Key definitions include:
    * `Json.SpellsChar`
    * `Json.SpellsNumber`
    * `Json.SpellsValue`
    * `Json.SpellsElement`
    * `Json.Denotes`
-/

namespace CommentLint

namespace Json

------------------------------------------------------------
-- Texts
------------------------------------------------------------

/- Characters that may stand between tokens. -/
def Blank (s : List Char) : Prop :=
  ∀ c ∈ s, isSpace c = true

/- The spellings of a character between quotes. -/
inductive SpellsChar (x : Char) : List Char → Prop where
| plain
    (hQuote : x ≠ '"')
    (hBackslash : x ≠ '\\')
    (hControl : 0x20 ≤ x.toNat) :
    SpellsChar x [x]
| letter
    {a : Char}
    (hLetter : unescape? a = some x) :
    SpellsChar x ['\\', a]
| unit
    {a b c d : Char}
    (hUnit : hexUnit? a b c d = some x.toNat) :
    SpellsChar x ['\\', 'u', a, b, c, d]
| pair
    {a b c d e f g h : Char}
    {high low : Nat}
    (hHigh : hexUnit? a b c d = some high)
    (hLow : hexUnit? e f g h = some low)
    (hIsHigh : isHighSurrogate high = true)
    (hIsLow : isLowSurrogate low = true)
    (hPair :
      x.toNat =
        0x10000 + (high - 0xD800) * 0x400 + (low - 0xDC00)) :
    SpellsChar x
      ['\\', 'u', a, b, c, d, '\\', 'u', e, f, g, h]

/- The spellings of characters one after another. -/
inductive SpellsChars : List Char → List Char → Prop where
| nil : SpellsChars [] []
| cons
    {x : Char}
    {xs s t : List Char}
    (hChar : SpellsChar x s)
    (hChars : SpellsChars xs t) :
    SpellsChars (x :: xs) (s ++ t)

/- The spellings of a text, its quotes included. -/
inductive SpellsText : String → List Char → Prop where
| quoted
    {xs s : List Char}
    (hChars : SpellsChars xs s) :
    SpellsText (String.ofList xs) ('"' :: s ++ ['"'])

------------------------------------------------------------
-- Numbers
------------------------------------------------------------

/- Decimal digits, at least one. -/
structure IsDigits (s : List Char) : Prop where
  ne_nil : s ≠ []
  isDigit : ∀ c ∈ s, c.isDigit = true

/- Decimal digits that start with no zero they can do without. -/
structure IsWhole (s : List Char) : Prop extends IsDigits s where
  eq_zero : s.head? = some '0' → s = ['0']

/- The sign of a number. -/
def minus (negative : Bool) : List Char :=
  if negative then ['-'] else []

/- The digits behind a point, or neither point nor digits. -/
inductive SpellsFraction : List Char → List Char → Prop where
| none : SpellsFraction [] []
| point
    {digits : List Char}
    (hDigits : IsDigits digits) :
    SpellsFraction digits ('.' :: digits)

/- The spellings of an exponent, which may be missing. -/
inductive SpellsExponent :
    Option Int → List Char → Prop where
| none : SpellsExponent none []
| unsigned
    {e : Char}
    {digits : List Char}
    (hMark : e = 'e' ∨ e = 'E')
    (hDigits : IsDigits digits) :
    SpellsExponent (some (decimalValue 0 digits)) (e :: digits)
| plus
    {e : Char}
    {digits : List Char}
    (hMark : e = 'e' ∨ e = 'E')
    (hDigits : IsDigits digits) :
    SpellsExponent (some (decimalValue 0 digits))
      (e :: '+' :: digits)
| minus
    {e : Char}
    {digits : List Char}
    (hMark : e = 'e' ∨ e = 'E')
    (hDigits : IsDigits digits) :
    SpellsExponent (some (-decimalValue 0 digits))
      (e :: '-' :: digits)

/-
  The number with a sign, with digits before and behind the
  point and with an exponent.  It is an integer where neither
  the point nor the exponent is written.
-/
def numberValue
    (negative : Bool)
    (whole fraction : List Char)
    (exponent : Option Int) : Value :=
  if fraction = [] ∧ exponent = none then
    let n : Int := decimalValue 0 whole
    .integer (if negative then -n else n)
  else
    .decimal
      (Binary64.ofDecimal negative
        (decimalValue (decimalValue 0 whole) fraction)
        (exponent.getD 0 - fraction.length))

/- The spellings of a number. -/
inductive SpellsNumber : Value → List Char → Prop where
| parts
    {whole fraction f e : List Char}
    {exponent : Option Int}
    (negative : Bool)
    (hWhole : IsWhole whole)
    (hFraction : SpellsFraction fraction f)
    (hExponent : SpellsExponent exponent e) :
    SpellsNumber
      (numberValue negative whole fraction exponent)
      (minus negative ++ (whole ++ (f ++ e)))

------------------------------------------------------------
-- Values
------------------------------------------------------------

/- The spellings of the name of a field, its colon included. -/
inductive SpellsName : String → List Char → Prop where
| colon
    {name : String}
    {b s b' : List Char}
    (hBefore : Blank b)
    (hText : SpellsText name s)
    (hAfter : Blank b') :
    SpellsName name (b ++ s ++ b' ++ [':'])

mutual

/- The spellings of a value, without blanks around it. -/
inductive SpellsValue : Value → List Char → Prop where
| null : SpellsValue .null "null".toList
| isTrue : SpellsValue (.bool true) "true".toList
| isFalse : SpellsValue (.bool false) "false".toList
| number
    {v : Value}
    {s : List Char}
    (hNumber : SpellsNumber v s) :
    SpellsValue v s
| text
    {t : String}
    {s : List Char}
    (hText : SpellsText t s) :
    SpellsValue (.text t) s
| emptyArray
    {b : List Char}
    (hBlank : Blank b) :
    SpellsValue (.array []) ('[' :: b ++ [']'])
| array
    {vs : List Value}
    {s : List Char}
    (hItems : SpellsItems vs s) :
    SpellsValue (.array vs) ('[' :: s ++ [']'])
| emptyObject
    {b : List Char}
    (hBlank : Blank b) :
    SpellsValue (.object []) ('\x7b' :: b ++ ['\x7d'])
| object
    {fields : List (String × Value)}
    {s : List Char}
    (hFields : SpellsFields fields s) :
    SpellsValue (.object fields) ('\x7b' :: s ++ ['\x7d'])

/- The spellings of a value with blanks around it. -/
inductive SpellsElement : Value → List Char → Prop where
| padded
    {v : Value}
    {b s b' : List Char}
    (hBefore : Blank b)
    (hValue : SpellsValue v s)
    (hAfter : Blank b') :
    SpellsElement v (b ++ s ++ b')

/- The spellings of items with commas between them. -/
inductive SpellsItems : List Value → List Char → Prop where
| last
    {v : Value}
    {s : List Char}
    (hItem : SpellsElement v s) :
    SpellsItems [v] s
| more
    {v : Value}
    {vs : List Value}
    {s t : List Char}
    (hItem : SpellsElement v s)
    (hItems : SpellsItems vs t) :
    SpellsItems (v :: vs) (s ++ ',' :: t)

/- The spellings of fields with commas between them. -/
inductive SpellsFields :
    List (String × Value) → List Char → Prop where
| last
    {name : String}
    {v : Value}
    {s t : List Char}
    (hName : SpellsName name s)
    (hValue : SpellsElement v t) :
    SpellsFields [(name, v)] (s ++ t)
| more
    {name : String}
    {v : Value}
    {fields : List (String × Value)}
    {s t u : List Char}
    (hName : SpellsName name s)
    (hValue : SpellsElement v t)
    (hFields : SpellsFields fields u) :
    SpellsFields ((name, v) :: fields) (s ++ t ++ ',' :: u)

end

/- The grammar gives a text the value. -/
def Denotes (s : String) (v : Value) : Prop :=
  SpellsElement v s.toList

end Json

end CommentLint
