import Handoff.Json.Skip

/-!
# The grammar of JSON

What a text has to look like, said without the readers. A quoted text that is kept spells
characters, one that is skipped only has a form; the same goes for numbers.

* `Glyph`, `Body`: the spellings of a character between quotes, and of several.
* `LooseGlyph`, `LooseBody`: the same without regard to surrogate pairs.
* `IsNumeral`, `IsInteger`: numerals of any form, and those that stand for an integer.
* `Derives`: values of any depth and the items of lists and objects.
-/

namespace Handoff

namespace Json

/-! ## Characters -/

/-- Only characters that `isBlank` accepts between tokens. -/
def Blanks (w : List Char) : Prop := ∀ c ∈ w, isBlank c = true

/-- A hexadecimal digit `c` of either case and its value `n`. -/
def HexDigit (c : Char) (n : Nat) : Prop :=
  "0123456789abcdef".toList[n]? = some c ∨ "0123456789ABCDEF".toList[n]? = some c

/-- Four hexadecimal digits and their value, the 16-bit unit of an escape. -/
inductive IsUnit : List Char → Nat → Prop
  | mk {a b c d : Char} {w x y z : Nat} : HexDigit a w → HexDigit b x → HexDigit c y →
      HexDigit d z → IsUnit [a, b, c, d] (w * 0x1000 + x * 0x100 + y * 0x10 + z)

def shortEscapes : List (Char × Char) :=
  [('"', '"'), ('\\', '\\'), ('/', '/'), ('b', '\x08'), ('f', '\x0c'), ('n', '\n'), ('r', '\r'),
    ('t', '\t')]

/-- A spelling of a character between quotes. -/
inductive Glyph : List Char → Char → Prop
  /-- The character itself, if it is no quote, no backslash and no control character. -/
  | plain {c : Char} : c ≠ '"' → c ≠ '\\' → ' ' ≤ c → Glyph [c] c
  | short {l c : Char} : (l, c) ∈ shortEscapes → Glyph ['\\', l] c
  /-- The number of the character, which is no half of a surrogate pair. -/
  | unit {t : List Char} {c : Char} : IsUnit t c.toNat → Glyph ('\\' :: 'u' :: t) c
  | pair {t u : List Char} {n m : Nat} {c : Char} : IsUnit t n → IsUnit u m →
      0xD800 ≤ n → n < 0xDC00 → 0xDC00 ≤ m → m < 0xE000 →
      c.toNat = 0x10000 + (n - 0xD800) * 0x400 + (m - 0xDC00) →
      Glyph ('\\' :: 'u' :: (t ++ '\\' :: 'u' :: u)) c

/-- A spelling of some characters between quotes, each by a `Glyph`. -/
inductive Body : List Char → List Char → Prop
  | nil : Body [] []
  | cons {t u cs : List Char} {c : Char} : Glyph t c → Body u cs → Body (t ++ u) (c :: cs)

/-- The form of a `Glyph`, which is all that is asked of a skipped text: any four digits will do. -/
inductive LooseGlyph : List Char → Prop
  /-- A character itself, if it is no quote, no backslash and no control character. -/
  | plain {c : Char} : c ≠ '"' → c ≠ '\\' → ' ' ≤ c → LooseGlyph [c]
  | short {l c : Char} : (l, c) ∈ shortEscapes → LooseGlyph ['\\', l]
  /-- A number, which may be a half of a surrogate pair. -/
  | unit {t : List Char} {n : Nat} : IsUnit t n → LooseGlyph ('\\' :: 'u' :: t)

/-- The form of a `Body`. -/
inductive LooseBody : List Char → Prop
  | nil : LooseBody []
  | cons {t u : List Char} : LooseGlyph t → LooseBody u → LooseBody (t ++ u)

/-! ## Numbers -/

def Digits (ds : List Char) : Prop := ds ≠ [] ∧ ∀ c ∈ ds, isDigit c = true

/-- The digits before the point: more than one do not start with a zero. -/
def IsWhole (ds : List Char) : Prop := Digits ds ∧ (ds.head? = some '0' → ds = ['0'])

/-- The point and the digits behind it, or nothing; the second list is the digits alone. -/
inductive IsFraction : List Char → List Char → Prop
  | absent : IsFraction [] []
  | digits {ds : List Char} : Digits ds → IsFraction ('.' :: ds) ds

/-- The mark, the sign and the digits of an exponent, or nothing; `true` is a minus sign. -/
inductive IsExponent : List Char → Option (Bool × List Char) → Prop
  | absent : IsExponent [] none
  | digits {mark : Char} {sign ds : List Char} {negative : Bool} : mark ∈ ['e', 'E'] →
      (sign, negative) ∈ [([], false), (['+'], false), (['-'], true)] → Digits ds →
      IsExponent (mark :: (sign ++ ds)) (some (negative, ds))

/-- A spelling of the parts of a `Numeral`. -/
inductive IsNumeral : List Char → Numeral → Prop
  | mk {sign whole f fraction x : List Char} {negative : Bool}
      {exponent : Option (Bool × List Char)} : (sign, negative) ∈ [([], false), (['-'], true)] →
      IsWhole whole → IsFraction f fraction → IsExponent x exponent →
      IsNumeral (sign ++ (whole ++ (f ++ x))) ⟨negative, whole, fraction, exponent⟩

/-- A numeral of an integer: digits alone, or a minus sign and digits of another number than zero. A
fraction or an exponent makes a double of any numeral. -/
inductive IsInteger : List Char → Int → Prop
  | plain {ds : List Char} : IsWhole ds → IsInteger ds (Nat.ofDigitChars 10 ds 0)
  | negative {ds : List Char} : IsWhole ds → Nat.ofDigitChars 10 ds 0 ≠ 0 →
      IsInteger ('-' :: ds) (-Nat.ofDigitChars 10 ds 0)

/-! ## Values -/

/-- The character that opens a list or an object, as `Frame.close` closes it. -/
def Frame.opening : Frame → Char
  | .list => '['
  | .map => '\x7b'

/-- What comes before the value of an item: nothing in a list, a key and a colon in an object. -/
inductive Lead : Frame → List Char → Prop
  | list : Lead .list []
  | map {k w : List Char} : LooseBody k → Blanks w → Lead .map ('"' :: (k ++ '"' :: (w ++ [':'])))

/-- The parts that are nested: a value, and the items of a list or an object, at least one, with
commas between them. -/
inductive Category where
  | value
  | items (f : Frame)

/-- A text is a value, or the items of a frame `f`. Nothing bounds the depth. -/
inductive Derives : Category → List Char → Prop
  | name {t : List Char} : t ∈ ["null".toList, "true".toList, "false".toList] → Derives .value t
  | text {b : List Char} : LooseBody b → Derives .value ('"' :: (b ++ ['"']))
  | number {t : List Char} {n : Numeral} : IsNumeral t n → Derives .value t
  /-- A list or an object without items. -/
  | empty {w : List Char} (f : Frame) : Blanks w → Derives .value (f.opening :: (w ++ [f.close]))
  /-- A list or an object with items. -/
  | filled {t : List Char} {f : Frame} : Derives (.items f) t →
      Derives .value (f.opening :: (t ++ [f.close]))
  | one {f : Frame} {w l w' v w'' : List Char} : Blanks w → Lead f l → Blanks w' →
      Derives .value v → Blanks w'' → Derives (.items f) (w ++ (l ++ (w' ++ (v ++ w''))))
  | more {f : Frame} {w l w' v w'' t : List Char} : Blanks w → Lead f l → Blanks w' →
      Derives .value v → Blanks w'' → Derives (.items f) t →
      Derives (.items f) (w ++ (l ++ (w' ++ (v ++ (w'' ++ ',' :: t)))))

/-! ## Blanks -/

theorem Blanks.nil : Blanks [] := by simp [Blanks]

theorem Blanks.append {w w' : List Char} (h : Blanks w) (h' : Blanks w') : Blanks (w ++ w') := by
  intro c hc
  rcases List.mem_append.mp hc with hc | hc
  · exact h c hc
  · exact h' c hc

theorem skipBlanks_cons {c : Char} {s : List Char} (h : isBlank c = false) :
    skipBlanks (c :: s) = c :: s := by
  simp [skipBlanks, h]

theorem skipBlanks_append {w : List Char} (h : Blanks w) (s : List Char) :
    skipBlanks (w ++ s) = skipBlanks s := List.dropWhile_append_of_pos h

/-- `skipBlanks` skips blanks only. -/
theorem blanks_of_skipBlanks {s r : List Char} (h : skipBlanks s = r) :
    ∃ w, Blanks w ∧ s = w ++ r := by
  subst h
  exact ⟨s.takeWhile isBlank, List.all_eq_true.mp List.all_takeWhile,
    List.takeWhile_append_dropWhile.symm⟩

end Json

end Handoff
