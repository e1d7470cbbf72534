/-
The grammar of JSON, and what the reader takes.

The grammar says which characters spell a value and which are left behind it: where blank
space may stand, what escapes and numerals stand for, in which order members may come and
which of two under one key stays (`Json.Grammar.Value`).  It is about texts of any nesting.

* **`Json.parse?_eq_some_iff`** — the reader gives a value for a text exactly if the text
  spells it with at most `nestingLimit` levels of nesting;
* **`Json.Denotes.unique`** — no text spells two values;
* **`Json.contentBytes_eq_iff`** — of two texts that are read, the canonical bytes are the same
  exactly if both spell one value.
-/
import Mathlib.Data.List.DropRight
import PlanHistory.Proofs.Json.RoundTrip

namespace PlanHistory

namespace Json

/-! ### The grammar -/

namespace Grammar

open Read (escaped? unit? wideInt?)

/-- Blank space in front of what is left. -/
def Blank (cs rest : List Char) : Prop :=
  ∃ blank, (∀ c ∈ blank, Read.isBlank c = true) ∧ cs = blank ++ rest

/-- The characters of a string behind its opening quote, up to the closing one. -/
inductive Chars : List Char → List Char → List Char → Prop where
  | close {rest : List Char} : Chars ('"' :: rest) [] rest
  | plain {c : Char} {cs chars rest : List Char} : c ≠ '"' → c ≠ '\\' → 0x20 ≤ c.toNat →
      Chars cs chars rest → Chars (c :: cs) (c :: chars) rest
  /-- A one-letter escape. -/
  | letter {c char : Char} {cs chars rest : List Char} : escaped? c = some char →
      Chars cs chars rest → Chars ('\\' :: c :: cs) (char :: chars) rest
  /-- The unit of a character that is no surrogate. -/
  | unit {a b c d : Char} {unit : Nat} {cs chars rest : List Char} :
      unit? a b c d = some unit → unit < 0xD800 ∨ 0xDFFF < unit → Chars cs chars rest →
      Chars ('\\' :: 'u' :: a :: b :: c :: d :: cs) (Char.ofNat unit :: chars) rest
  /-- Two surrogates, the high one first. -/
  | pair {a b c d e f g h : Char} {high low : Nat} {cs chars rest : List Char} :
      unit? a b c d = some high → 0xD800 ≤ high → high ≤ 0xDBFF →
      unit? e f g h = some low → 0xDC00 ≤ low → low ≤ 0xDFFF → Chars cs chars rest →
      Chars ('\\' :: 'u' :: a :: b :: c :: d :: '\\' :: 'u' :: e :: f :: g :: h :: cs)
        (Char.ofNat (0x10000 + (high - 0xD800) * 0x400 + (low - 0xDC00)) :: chars) rest

/-- At least one digit. -/
structure Digits (digits : List Char) : Prop where
  ne_nil : digits ≠ []
  isDigit : ∀ c ∈ digits, c.isDigit

/-- The places behind the point of a numeral, if it has one. -/
inductive Fraction : List Char → List Char → List Char → Prop where
  | absent {rest : List Char} : Fraction rest [] rest
  | places {places rest : List Char} : Digits places →
      Fraction ('.' :: (places ++ rest)) places rest

/-- The power of ten of a numeral, if it has one. -/
inductive Power : List Char → Option Int → List Char → Prop where
  | absent {rest : List Char} : Power rest none rest
  | unsigned {mark : Char} {digits rest : List Char} : mark = 'e' ∨ mark = 'E' → Digits digits →
      Power (mark :: (digits ++ rest)) (some (Decimal.ofNumeral digits)) rest
  | plus {mark : Char} {digits rest : List Char} : mark = 'e' ∨ mark = 'E' → Digits digits →
      Power (mark :: '+' :: (digits ++ rest)) (some (Decimal.ofNumeral digits)) rest
  | minus {mark : Char} {digits rest : List Char} : mark = 'e' ∨ mark = 'E' → Digits digits →
      Power (mark :: '-' :: (digits ++ rest)) (some (-(Decimal.ofNumeral digits : Int))) rest

/-- A numeral behind its sign. -/
inductive Unsigned (negative : Bool) : List Char → Number → List Char → Prop where
  /-- Digits alone spell the integer that fits a word. -/
  | whole {digits rest : List Char} {i : WideInt} : Read.Leads digits →
      wideInt? negative (Decimal.ofNumeral digits) = some i →
      Unsigned negative (digits ++ rest) (.whole i) rest
  /-- All else is the double next to what it spells. -/
  | float {digits tail places tail' rest : List Char} {power? : Option Int} {x : Binary64} :
      Read.Leads digits → Fraction tail places tail' → Power tail' power? rest →
      (places = [] → power? = none → wideInt? negative (Decimal.ofNumeral digits) = none) →
      Decimal.toBinary64? negative
        ⟨Decimal.ofNumeral (digits ++ places), power?.getD 0 - places.length⟩ = some x →
      Unsigned negative (digits ++ tail) (.float x) rest

/-- A value without items or members. -/
inductive Atom : List Char → Json → List Char → Prop where
  | null {rest : List Char} : Atom ('n' :: 'u' :: 'l' :: 'l' :: rest) .null rest
  | yes {rest : List Char} : Atom ('t' :: 'r' :: 'u' :: 'e' :: rest) (.bool true) rest
  | no {rest : List Char} : Atom ('f' :: 'a' :: 'l' :: 's' :: 'e' :: rest) (.bool false) rest
  | string {cs chars rest : List Char} : Chars cs chars rest →
      Atom ('"' :: cs) (.string (String.ofList chars)) rest
  | positive {cs rest : List Char} {n : Number} : Unsigned false cs n rest →
      Atom cs (.number n) rest
  | negative {cs rest : List Char} {n : Number} : Unsigned true cs n rest →
      Atom ('-' :: cs) (.number n) rest

section Containers

variable (spells : List Char → Json → List Char → Prop)

/-- The items of an array, each of which is spelled in a given way, up to the closing
bracket. -/
inductive Items : List Char → List Json → List Char → Prop where
  | last {cs more rest : List Char} {item : Json} : spells cs item more →
      Blank more (']' :: rest) → Items cs [item] rest
  | next {cs more next rest : List Char} {item : Json} {items : List Json} :
      spells cs item more → Blank more (',' :: next) → Items next items rest →
      Items cs (item :: items) rest

/-- The members of an object, in the order in which they are written, up to the closing
brace. -/
inductive Members : List Char → List (String × Json) → List Char → Prop where
  | last {cs text chars colon value more rest : List Char} {member : Json} :
      Blank cs ('"' :: text) → Chars text chars colon → Blank colon (':' :: value) →
      spells value member more → Blank more ('}' :: rest) →
      Members cs [(String.ofList chars, member)] rest
  | next {cs text chars colon value more next rest : List Char} {member : Json}
      {members : List (String × Json)} :
      Blank cs ('"' :: text) → Chars text chars colon → Blank colon (':' :: value) →
      spells value member more → Blank more (',' :: next) → Members next members rest →
      Members cs ((String.ofList chars, member) :: members) rest

/-- An array or an object.  Of the members under one key the last stays. -/
inductive Container : List Char → Json → List Char → Prop where
  | empty {cs rest : List Char} : Blank cs (']' :: rest) → Container ('[' :: cs) (.array []) rest
  | array {cs rest : List Char} {items : List Json} : Items spells cs items rest →
      Container ('[' :: cs) (.array items) rest
  | bare {cs rest : List Char} : Blank cs ('}' :: rest) → Container ('{' :: cs) (.object []) rest
  | object {cs rest : List Char} {members : List (String × Json)} : Members spells cs members rest →
      Container ('{' :: cs) (ofMembers members) rest

end Containers

/-- A value behind blank space, with arrays and objects nested so many levels deep at most. -/
def Value : Nat → List Char → Json → List Char → Prop
  | 0, cs, value, rest => ∃ start, Blank cs start ∧ Atom start value rest
  | levels + 1, cs, value, rest =>
    ∃ start, Blank cs start ∧ (Atom start value rest ∨ Container (Value levels) start value rest)

end Grammar

/-- Whether a text spells a value with at most so many levels of nesting. -/
def DenotesWithin (levels : Nat) (text : String) (value : Json) : Prop :=
  ∃ rest, Grammar.Value levels text.toList value rest ∧ Grammar.Blank rest []

/-- Whether a text spells a value. -/
def Denotes (text : String) (value : Json) : Prop :=
  ∃ levels, DenotesWithin levels text value

namespace Grammar

open Read (string? fraction? power? wideInt? number? skipBlank isBlank)

/-! ### Blank space -/

theorem blank_skipBlank (cs : List Char) : Blank cs (skipBlank cs) :=
  ⟨cs.takeWhile isBlank, List.all_eq_true.mp List.all_takeWhile,
    List.takeWhile_append_dropWhile.symm⟩

/-- Blank space is skipped up to what is not blank. -/
theorem Blank.skipBlank_eq {cs rest : List Char} {c : Char} (h : Blank cs (c :: rest))
    (hc : isBlank c = false) : skipBlank cs = c :: rest := by
  obtain ⟨blank, hblank, rfl⟩ := h
  rw [skipBlank, List.dropWhile_append_of_pos hblank, ← skipBlank, Read.skipBlank_cons hc]

theorem Blank.length_le {cs rest : List Char} (h : Blank cs rest) : rest.length ≤ cs.length := by
  obtain ⟨blank, -, rfl⟩ := h
  rw [List.length_append]
  exact Nat.le_add_left _ _

/-! ### Strings -/

/-- What the grammar takes for a string is read as one. -/
theorem Chars.string?_eq {cs chars rest : List Char} (h : Chars cs chars rest)
    (read : List Char) : string? read cs = some (read.reverse ++ chars, rest) := by
  induction h generalizing read with
  | close => simp [string?]
  | @plain c cs chars rest hquote hslash hcontrol _ ih =>
    rw [string?, if_neg (by omega), ih]
    · simp
    · exact hquote
    · exact fun _ _ _ _ _ heq _ => hslash heq
    · exact fun _ _ heq _ => hslash heq
  | @letter c char cs chars rest hletter _ ih =>
    have hunit : c ≠ 'u' := by
      rintro rfl
      simp [Read.escaped?] at hletter
    rw [string?, hletter]
    · simp [ih]
    · exact fun _ _ _ _ _ heq _ => hunit heq
  | unit hunit hsurrogate _ ih =>
    rw [string?, hunit]
    dsimp only
    rw [if_neg (by omega), if_neg (by omega), ih]
    simp
  | pair hhigh hleast hgreatest hlow hleastLow hgreatestLow _ ih =>
    rw [string?, hhigh]
    dsimp only
    rw [if_neg (by omega), if_pos ⟨hleast, hgreatest⟩]
    simp only [hlow]
    rw [if_pos ⟨hleastLow, hgreatestLow⟩, ih]
    simp

/-- What is read as a string the grammar takes for one. -/
theorem chars_of_string? {read cs chars rest : List Char}
    (h : string? read cs = some (chars, rest)) :
    ∃ more, chars = read.reverse ++ more ∧ Chars cs more rest := by
  -- What is read behind one more character is read behind those before it.
  have behind {c : Char} {read cs cs' : List Char}
      (hmore : ∃ more, chars = (c :: read).reverse ++ more ∧ Chars cs' more rest)
      (hstep : ∀ more, Chars cs' more rest → Chars cs (c :: more) rest) :
      ∃ more, chars = read.reverse ++ more ∧ Chars cs more rest := by
    obtain ⟨more, rfl, hmore⟩ := hmore
    exact ⟨c :: more, by simp, hstep more hmore⟩
  fun_induction string? read cs with
  | case1 read more =>
    obtain ⟨rfl, rfl⟩ := Prod.mk.inj (Option.some_inj.mp h)
    exact ⟨[], (List.append_nil _).symm, .close⟩
  | case5 read a b c d high hhigh hnotLow hisHigh e f g k cs low hlow hisLow ih =>
    exact behind (ih h) fun _ =>
      .pair hhigh hisHigh.1 hisHigh.2 hlow hisLow.1 hisLow.2
  | case8 read a b c d cs unit hunit hnotLow hnotHigh ih =>
    exact behind (ih h) fun _ => .unit hunit (by omega)
  | case10 read c cs hnoUnit char hletter ih =>
    exact behind (ih h) fun _ => .letter hletter
  | case12 read c cs hquote _ hletter hcontrol ih =>
    have hslash : c ≠ '\\' := by
      rintro rfl
      cases cs with
      | nil => simp [string?] at h
      | cons c cs => exact hletter c cs rfl rfl
    exact behind (ih h) fun _ => .plain hquote hslash (by omega)
  | _ => simp at h

/-! ### Numerals -/

/-- What does not go on with a numeral. -/
def Stops (rest : List Char) : Prop :=
  ∀ c ∈ rest.head?, c.isDigit = false ∧ c ≠ '.' ∧ c ≠ 'e' ∧ c ≠ 'E'

theorem Stops.endsDigits {rest : List Char} (h : Stops rest) : Decimal.EndsDigits rest :=
  fun c hc => (h c hc).1

/-- Behind a value stand blank space and the next token. -/
theorem Blank.stops {cs rest : List Char} (h : Blank cs rest) (hrest : Stops rest) : Stops cs := by
  obtain ⟨blank, hblank, rfl⟩ := h
  cases blank with
  | nil => exact hrest
  | cons first blank =>
    rintro c ⟨⟩
    have hfirst := hblank first List.mem_cons_self
    simp only [isBlank, Bool.or_eq_true, beq_iff_eq] at hfirst
    rcases hfirst with ((rfl | rfl) | rfl) | rfl <;> decide

theorem stops_cons {c : Char} {rest : List Char}
    (h : c.isDigit = false ∧ c ≠ '.' ∧ c ≠ 'e' ∧ c ≠ 'E') : Stops (c :: rest) := by
  rintro _ ⟨⟩
  exact h

theorem digits_takeWhile {cs : List Char} (h : cs.takeWhile Char.isDigit ≠ []) :
    Digits (cs.takeWhile Char.isDigit) :=
  ⟨h, List.all_eq_true.mp List.all_takeWhile⟩

/-- The digits of a power of ten are read up to what is no digit. -/
theorem Digits.power?_eq {digits rest : List Char} (h : Digits digits)
    (hrest : Decimal.EndsDigits rest) :
    Decimal.power? (digits ++ rest) = some ((Decimal.ofNumeral digits : Int), rest)
      ∧ Decimal.power? ('+' :: (digits ++ rest)) = some ((Decimal.ofNumeral digits : Int), rest)
      ∧ Decimal.power? ('-' :: (digits ++ rest))
        = some (-(Decimal.ofNumeral digits : Int), rest) := by
  have htake := Decimal.takeWhile_digits h.isDigit hrest
  have hdrop := Decimal.dropWhile_digits h.isDigit hrest
  obtain ⟨digit, more, rfl⟩ := List.exists_cons_of_ne_nil h.ne_nil
  have hdigit := h.isDigit digit List.mem_cons_self
  refine ⟨?_, ?_, ?_⟩
  · rw [Decimal.power?]
    · simp only [htake, hdrop, Option.map_some]
    · rintro rest' heq
      obtain ⟨rfl, -⟩ := List.cons.inj heq
      exact absurd hdigit (by decide)
    · rintro rest' heq
      obtain ⟨rfl, -⟩ := List.cons.inj heq
      exact absurd hdigit (by decide)
  · rw [Decimal.power?]
    simp only [htake, hdrop, Option.map_some]
  · rw [Decimal.power?]
    simp only [htake, hdrop, Option.map_some]

theorem Power.power?_eq {cs rest : List Char} {power : Option Int} (h : Power cs power rest)
    (hrest : Stops rest) : power? cs = some (power, rest) := by
  cases h with
  | absent =>
    rw [power?]
    · rintro rest' rfl
      exact (hrest _ rfl).2.2.1 rfl
    · rintro rest' rfl
      exact (hrest _ rfl).2.2.2 rfl
  | unsigned hmark digits =>
    rcases hmark with rfl | rfl <;> rw [power?, (digits.power?_eq hrest.endsDigits).1] <;> rfl
  | plus hmark digits =>
    rcases hmark with rfl | rfl <;> rw [power?, (digits.power?_eq hrest.endsDigits).2.1] <;> rfl
  | minus hmark digits =>
    rcases hmark with rfl | rfl <;> rw [power?, (digits.power?_eq hrest.endsDigits).2.2] <;> rfl

/-- A power of ten begins with neither a digit nor a point. -/
theorem Power.ends {cs rest : List Char} {power : Option Int} (h : Power cs power rest)
    (hrest : Stops rest) : ∀ c ∈ cs.head?, c.isDigit = false ∧ c ≠ '.' := by
  have mark {c : Char} (hc : c = 'e' ∨ c = 'E') : c.isDigit = false ∧ c ≠ '.' := by
    rcases hc with rfl | rfl <;> decide
  cases h with
  | absent => exact fun c hc => ⟨(hrest c hc).1, (hrest c hc).2.1⟩
  | unsigned hmark => rintro _ ⟨⟩; exact mark hmark
  | plus hmark => rintro _ ⟨⟩; exact mark hmark
  | minus hmark => rintro _ ⟨⟩; exact mark hmark

theorem Fraction.fraction?_eq {cs places rest : List Char} (h : Fraction cs places rest)
    (hrest : ∀ c ∈ rest.head?, c.isDigit = false ∧ c ≠ '.') :
    fraction? cs = some (places, rest) ∧ Decimal.EndsDigits cs := by
  have hends : Decimal.EndsDigits rest := fun c hc => (hrest c hc).1
  cases h with
  | absent =>
    refine ⟨?_, hends⟩
    rw [fraction?]
    rintro rest' rfl
    exact (hrest _ rfl).2 rfl
  | places digits =>
    exact ⟨Read.fraction?_places digits.ne_nil digits.isDigit hends,
      Decimal.endsDigits_cons (by decide)⟩

/-- What the grammar takes for a numeral is read as one. -/
theorem Unsigned.unsigned?_eq {negative : Bool} {cs rest : List Char} {n : Number}
    (h : Unsigned negative cs n rest) (hrest : Stops rest) :
    Read.unsigned? negative cs = some (n, rest) := by
  cases h with
  | whole leads hwide =>
    have hpower : Power rest none rest := .absent
    have hfraction : Fraction rest [] rest := .absent
    obtain ⟨hfraction?, hends⟩ := hfraction.fraction?_eq (hpower.ends hrest)
    rw [Read.unsigned?_eq negative leads hends hfraction? (hpower.power?_eq hrest), hwide]
    rfl
  | float leads hfraction hpower hwide hx =>
    obtain ⟨hfraction?, hends⟩ := hfraction.fraction?_eq (hpower.ends hrest)
    rw [Read.unsigned?_eq negative leads hends hfraction? (hpower.power?_eq hrest), hx]
    split
    next hbare =>
      obtain ⟨hplaces, hnone⟩ := Bool.and_eq_true_iff.mp hbare
      rw [hwide (List.isEmpty_iff.mp hplaces) (Option.isNone_iff_eq_none.mp hnone)]
      rfl
    next => rfl

theorem Fraction.eq_of_absent {cs rest : List Char} (h : Fraction cs [] rest) : cs = rest := by
  cases h with
  | absent => rfl
  | places digits => exact absurd rfl digits.ne_nil

theorem Power.eq_of_absent {cs rest : List Char} (h : Power cs none rest) : cs = rest := by
  cases h
  rfl

/-- What is read as a power of ten the grammar takes for one. -/
theorem power_of_mark {mark : Char} (hmark : mark = 'e' ∨ mark = 'E') {cs rest : List Char}
    {power : Int} (h : Decimal.power? cs = some (power, rest)) :
    Power (mark :: cs) (some power) rest := by
  unfold Decimal.power? at h
  extract_lets unsigned at h
  -- Behind each sign stand the digits and the rest.
  have spelled {cs rest : List Char} {n : Nat} (hread : unsigned cs = some (n, rest)) :
      ∃ digits, Digits digits ∧ cs = digits ++ rest ∧ n = Decimal.ofNumeral digits := by
    dsimp only [unsigned] at hread
    split at hread
    next => simp at hread
    next hne =>
      obtain ⟨rfl, rfl⟩ := Prod.mk.inj (Option.some_inj.mp hread)
      exact ⟨_, digits_takeWhile hne, List.takeWhile_append_dropWhile.symm, rfl⟩
  split at h
  next cs =>
    obtain ⟨⟨n, behind⟩, hread, heq⟩ := Option.map_eq_some_iff.mp h
    obtain ⟨rfl, rfl⟩ := Prod.mk.inj heq
    obtain ⟨digits, hdigits, rfl, rfl⟩ := spelled hread
    exact .minus hmark hdigits
  next cs =>
    obtain ⟨⟨n, behind⟩, hread, heq⟩ := Option.map_eq_some_iff.mp h
    obtain ⟨rfl, rfl⟩ := Prod.mk.inj heq
    obtain ⟨digits, hdigits, rfl, rfl⟩ := spelled hread
    exact .plus hmark hdigits
  next =>
    obtain ⟨⟨n, behind⟩, hread, heq⟩ := Option.map_eq_some_iff.mp h
    obtain ⟨rfl, rfl⟩ := Prod.mk.inj heq
    obtain ⟨digits, hdigits, rfl, rfl⟩ := spelled hread
    exact .unsigned hmark hdigits

theorem power_of_power? {cs rest : List Char} {power : Option Int}
    (h : power? cs = some (power, rest)) : Power cs power rest := by
  unfold power? at h
  split at h
  next cs =>
    obtain ⟨⟨size, more⟩, hpower, heq⟩ := Option.map_eq_some_iff.mp h
    obtain ⟨rfl, rfl⟩ := Prod.mk.inj heq
    exact power_of_mark (Or.inl rfl) hpower
  next cs =>
    obtain ⟨⟨size, more⟩, hpower, heq⟩ := Option.map_eq_some_iff.mp h
    obtain ⟨rfl, rfl⟩ := Prod.mk.inj heq
    exact power_of_mark (Or.inr rfl) hpower
  next =>
    obtain ⟨rfl, rfl⟩ := Prod.mk.inj (Option.some_inj.mp h)
    exact .absent

theorem fraction_of_fraction? {cs places rest : List Char}
    (h : fraction? cs = some (places, rest)) : Fraction cs places rest := by
  unfold fraction? at h
  split at h
  next cs =>
    split at h
    next => simp at h
    next hne =>
      obtain ⟨rfl, rfl⟩ := Prod.mk.inj (Option.some_inj.mp h)
      have hfraction : Fraction ('.' :: (cs.takeWhile Char.isDigit ++ cs.dropWhile Char.isDigit))
          (cs.takeWhile Char.isDigit) (cs.dropWhile Char.isDigit) :=
        .places (digits_takeWhile hne)
      rwa [List.takeWhile_append_dropWhile] at hfraction
  next =>
    obtain ⟨rfl, rfl⟩ := Prod.mk.inj (Option.some_inj.mp h)
    exact .absent

/-- What is read as a numeral the grammar takes for one. -/
theorem unsigned_of_unsigned? {negative : Bool} {cs rest : List Char} {n : Number}
    (h : Read.unsigned? negative cs = some (n, rest)) : Unsigned negative cs n rest := by
  have htext : cs.takeWhile Char.isDigit ++ cs.dropWhile Char.isDigit = cs :=
    List.takeWhile_append_dropWhile
  rw [Read.unsigned?] at h
  dsimp only at h
  split at h
  next => simp at h
  next hstart =>
    have leads : Read.Leads (cs.takeWhile Char.isDigit) := by
      rw [Bool.not_eq_true, Bool.or_eq_false_iff, Bool.and_eq_false_imp, beq_iff_eq,
        bne_eq_false_iff_eq] at hstart
      exact ⟨List.isEmpty_eq_false_iff.mp hstart.1, List.all_eq_true.mp List.all_takeWhile,
        hstart.2⟩
    split at h
    next => simp at h
    next places tail hfraction =>
      split at h
      next => simp at h
      next power? rest' hpower =>
        have hfraction' := fraction_of_fraction? hfraction
        have hpower' := power_of_power? hpower
        obtain ⟨number, hnumber, heq⟩ := Option.map_eq_some_iff.mp h
        obtain ⟨rfl, rfl⟩ := Prod.mk.inj heq
        rw [← htext]
        -- A double is spelled by whatever spells no integer.
        have float (hwide : places = [] → power? = none →
              wideInt? negative (Decimal.ofNumeral (cs.takeWhile Char.isDigit)) = none)
            (hfloat : (Decimal.toBinary64? negative
                ⟨Decimal.ofNumeral (cs.takeWhile Char.isDigit ++ places),
                  power?.getD 0 - places.length⟩).map Number.float = some number) :
            Unsigned negative (cs.takeWhile Char.isDigit ++ cs.dropWhile Char.isDigit) number
              rest' := by
          obtain ⟨x, hx, rfl⟩ := Option.map_eq_some_iff.mp hfloat
          exact .float leads hfraction' hpower' hwide hx
        split at hnumber
        next hbare =>
          obtain ⟨hplaces, hnone⟩ := Bool.and_eq_true_iff.mp hbare
          obtain rfl := List.isEmpty_iff.mp hplaces
          obtain rfl := Option.isNone_iff_eq_none.mp hnone
          split at hnumber
          next i hwide =>
            obtain rfl := Option.some_inj.mp hnumber
            rw [hfraction'.eq_of_absent, hpower'.eq_of_absent]
            exact .whole leads hwide
          next hwide => exact float (fun _ _ => hwide) hnumber
        next hbare =>
          refine float (fun hplaces hnone => absurd ?_ hbare) hnumber
          rw [hplaces, hnone]
          rfl

/-! ### Items and members -/

section Containers

variable {spells other : List Char → Json → List Char → Prop}
  {read : List Char → Option (Json × List Char)} {cs rest : List Char}

theorem Items.imp {items : List Json} (h : Items spells cs items rest)
    (himp : ∀ {cs value rest}, spells cs value rest → other cs value rest) :
    Items other cs items rest := by
  induction h with
  | last hitem hblank => exact .last (himp hitem) hblank
  | next hitem hblank _ ih => exact .next (himp hitem) hblank ih

theorem Members.imp {members : List (String × Json)} (h : Members spells cs members rest)
    (himp : ∀ {cs value rest}, spells cs value rest → other cs value rest) :
    Members other cs members rest := by
  induction h with
  | last hquote hkey hcolon hvalue hblank =>
    exact .last hquote hkey hcolon (himp hvalue) hblank
  | next hquote hkey hcolon hvalue hblank _ ih =>
    exact .next hquote hkey hcolon (himp hvalue) hblank ih

theorem Container.imp {value : Json} (h : Container spells cs value rest)
    (himp : ∀ {cs value rest}, spells cs value rest → other cs value rest) :
    Container other cs value rest := by
  cases h with
  | empty hblank => exact .empty hblank
  | array hitems => exact .array (hitems.imp himp)
  | bare hblank => exact .bare hblank
  | object hmembers => exact .object (hmembers.imp himp)

/-- What is read as items the grammar takes for them, each as it is read. -/
theorem items_of_items? {bound : Nat} {done items : List Json}
    (h : Read.items? read bound done cs = some (items, rest)) :
    ∃ more, items = done.reverse ++ more
      ∧ Items (fun cs value rest => read cs = some (value, rest)) cs more rest := by
  induction bound generalizing done cs with
  | zero => simp [Read.items?] at h
  | succ bound ih =>
    rw [Read.items?] at h
    split at h
    next => simp at h
    next item behind hitem =>
      have hblank := blank_skipBlank behind
      split at h
      next next hnext =>
        rw [hnext] at hblank
        obtain ⟨more, rfl, hmore⟩ := ih h
        exact ⟨item :: more, by simp, .next hitem hblank hmore⟩
      next hclose =>
        rw [hclose] at hblank
        obtain ⟨rfl, rfl⟩ := Prod.mk.inj (Option.some_inj.mp h)
        exact ⟨[item], by simp, .last hitem hblank⟩
      next => simp at h

/-- What is read as members the grammar takes for them, each as it is read. -/
theorem members_of_members? {bound : Nat} {done members : Keyed Json}
    (h : Read.members? read bound done cs = some (members, rest)) :
    ∃ more, members = more.foldl (fun kept entry => Keyed.insert entry.1 entry.2 kept) done
      ∧ Members (fun cs value rest => read cs = some (value, rest)) cs more rest := by
  induction bound generalizing done cs with
  | zero => simp [Read.members?] at h
  | succ bound ih =>
    rw [Read.members?] at h
    have hquote := blank_skipBlank cs
    split at h
    next text htext =>
      rw [htext] at hquote
      split at h
      next => simp at h
      next chars colon hkey =>
        obtain ⟨chars, rfl, hkey⟩ := chars_of_string? hkey
        have hcolon := blank_skipBlank colon
        split at h
        next value hvalue =>
          rw [hvalue] at hcolon
          split at h
          next => simp at h
          next member behind hmember =>
            have hblank := blank_skipBlank behind
            dsimp only at h
            split at h
            next next hnext =>
              rw [hnext] at hblank
              obtain ⟨more, rfl, hmore⟩ := ih h
              exact ⟨_ :: more, rfl, .next hquote hkey hcolon hmember hblank hmore⟩
            next hclose =>
              rw [hclose] at hblank
              obtain ⟨rfl, rfl⟩ := Prod.mk.inj (Option.some_inj.mp h)
              exact ⟨[_], rfl, .last hquote hkey hcolon hmember hblank⟩
            next => simp at h
        next => simp at h
    next => simp at h

end Containers

/-! ### Values -/

section Values

variable {bound levels : Nat} {cs rest : List Char} {value : Json}

theorem skipBlank_skipBlank (cs : List Char) : skipBlank (skipBlank cs) = skipBlank cs :=
  List.dropWhile_idempotent ..

theorem value?_skipBlank (bound levels : Nat) (cs : List Char) :
    Read.value? bound levels (skipBlank cs) = Read.value? bound levels cs := by
  rw [Read.value?.eq_def bound levels (skipBlank cs), Read.value?.eq_def bound levels cs,
    skipBlank_skipBlank]

theorem items?_skipBlank (bound levels count : Nat) (done : List Json) (cs : List Char) :
    Read.items? (Read.value? bound levels) count done (skipBlank cs)
      = Read.items? (Read.value? bound levels) count done cs := by
  cases count with
  | zero => rfl
  | succ count => rw [Read.items?, Read.items?, value?_skipBlank]

theorem members?_skipBlank (read : List Char → Option (Json × List Char)) (count : Nat)
    (done : Keyed Json) (cs : List Char) :
    Read.members? read count done (skipBlank cs) = Read.members? read count done cs := by
  cases count with
  | zero => rfl
  | succ count => rw [Read.members?, Read.members?, skipBlank_skipBlank]

theorem atom_of_number? {n : Number} (h : number? cs = some (n, rest)) :
    Atom cs (.number n) rest := by
  unfold number? at h
  split at h
  next => exact .negative (unsigned_of_unsigned? h)
  next => exact .positive (unsigned_of_unsigned? h)

/-- What is read as a value is one without items or members, or these are read with a level
less. -/
theorem container_of_value? (h : Read.value? bound levels cs = some (value, rest)) :
    Atom (skipBlank cs) value rest ∨ ∃ fewer, levels = fewer + 1
      ∧ Container (fun cs value rest => Read.value? bound fewer cs = some (value, rest))
        (skipBlank cs) value rest := by
  rw [Read.value?.eq_def] at h
  split at h
  next more htext =>
    obtain ⟨rfl, rfl⟩ := Prod.mk.inj (Option.some_inj.mp h)
    rw [htext]
    exact Or.inl .null
  next more htext =>
    obtain ⟨rfl, rfl⟩ := Prod.mk.inj (Option.some_inj.mp h)
    rw [htext]
    exact Or.inl .yes
  next more htext =>
    obtain ⟨rfl, rfl⟩ := Prod.mk.inj (Option.some_inj.mp h)
    rw [htext]
    exact Or.inl .no
  next more htext =>
    obtain ⟨⟨chars, behind⟩, hstring, heq⟩ := Option.map_eq_some_iff.mp h
    obtain ⟨rfl, rfl⟩ := Prod.mk.inj heq
    obtain ⟨chars, rfl, hchars⟩ := chars_of_string? hstring
    rw [htext]
    exact Or.inl (.string hchars)
  next more htext =>
    rw [htext]
    cases levels with
    | zero => simp at h
    | succ fewer =>
      refine Or.inr ⟨fewer, rfl, ?_⟩
      have hblank := blank_skipBlank more
      dsimp only at h
      split at h
      next hclose =>
        obtain ⟨rfl, rfl⟩ := Prod.mk.inj (Option.some_inj.mp h)
        exact .empty (hclose ▸ hblank)
      next =>
        rw [items?_skipBlank] at h
        obtain ⟨⟨_, behind⟩, hread, heq⟩ := Option.map_eq_some_iff.mp h
        obtain ⟨rfl, rfl⟩ := Prod.mk.inj heq
        obtain ⟨items, rfl, hitems⟩ := items_of_items? hread
        exact .array hitems
  next more htext =>
    rw [htext]
    cases levels with
    | zero => simp at h
    | succ fewer =>
      refine Or.inr ⟨fewer, rfl, ?_⟩
      have hblank := blank_skipBlank more
      dsimp only at h
      split at h
      next hclose =>
        obtain ⟨rfl, rfl⟩ := Prod.mk.inj (Option.some_inj.mp h)
        exact .bare (hclose ▸ hblank)
      next =>
        rw [members?_skipBlank] at h
        obtain ⟨⟨_, behind⟩, hread, heq⟩ := Option.map_eq_some_iff.mp h
        obtain ⟨rfl, rfl⟩ := Prod.mk.inj heq
        obtain ⟨members, rfl, hmembers⟩ := members_of_members? hread
        exact .object hmembers
  next =>
    obtain ⟨⟨n, behind⟩, hnumber, heq⟩ := Option.map_eq_some_iff.mp h
    obtain ⟨rfl, rfl⟩ := Prod.mk.inj heq
    exact Or.inl (atom_of_number? hnumber)

/-- What is read as a value the grammar takes for one. -/
theorem value_of_value? (h : Read.value? bound levels cs = some (value, rest)) :
    Value levels cs value rest := by
  induction levels generalizing cs value rest with
  | zero =>
    rcases container_of_value? h with hatom | ⟨fewer, hlevels, -⟩
    · exact ⟨_, blank_skipBlank cs, hatom⟩
    · omega
  | succ levels ih =>
    refine ⟨_, blank_skipBlank cs, ?_⟩
    rcases container_of_value? h with hatom | ⟨fewer, hlevels, hcontainer⟩
    · exact Or.inl hatom
    · obtain rfl : fewer = levels := by omega
      exact Or.inr (hcontainer.imp ih)

/-! ### What the grammar takes is read -/

theorem Chars.length_lt {cs chars rest : List Char} (h : Chars cs chars rest) :
    rest.length < cs.length := by
  induction h with
  | close => exact Nat.lt_succ_self _
  | _ =>
    simp only [List.length_cons]
    omega

theorem Unsigned.length_lt {negative : Bool} {n : Number} (h : Unsigned negative cs n rest) :
    rest.length < cs.length := by
  have fraction {cs places rest : List Char} (h : Fraction cs places rest) :
      rest.length ≤ cs.length := by
    cases h with
    | absent => exact le_rfl
    | places => simp only [List.length_cons, List.length_append]; omega
  have power {cs rest : List Char} {power? : Option Int} (h : Power cs power? rest) :
      rest.length ≤ cs.length := by
    cases h with
    | absent => exact le_rfl
    | _ => simp only [List.length_cons, List.length_append]; omega
  cases h with
  | whole leads =>
    rw [List.length_append]
    have := List.length_pos_iff.mpr leads.ne_nil
    omega
  | float leads hfraction hpower =>
    rw [List.length_append]
    have := List.length_pos_iff.mpr leads.ne_nil
    have := fraction hfraction
    have := power hpower
    omega

theorem Atom.length_lt (h : Atom cs value rest) : rest.length < cs.length := by
  cases h with
  | null => simp only [List.length_cons]; omega
  | yes => simp only [List.length_cons]; omega
  | no => simp only [List.length_cons]; omega
  | string hchars => exact hchars.length_lt.trans (Nat.lt_succ_self _)
  | positive hnumber => exact hnumber.length_lt
  | negative hnumber => exact hnumber.length_lt.trans (Nat.lt_succ_self _)

section Containers

variable {spells : List Char → Json → List Char → Prop}
  {read : List Char → Option (Json × List Char)}

theorem Items.length_lt {items : List Json} (h : Items spells cs items rest)
    (hshort : ∀ {cs value rest}, spells cs value rest → rest.length < cs.length) :
    rest.length < cs.length := by
  induction h with
  | last hitem hblank =>
    have hbehind := hblank.length_le
    rw [List.length_cons] at hbehind
    have := hshort hitem
    omega
  | next hitem hblank _ ih =>
    have hbehind := hblank.length_le
    rw [List.length_cons] at hbehind
    have := hshort hitem
    omega

theorem Members.length_lt {members : List (String × Json)} (h : Members spells cs members rest)
    (hshort : ∀ {cs value rest}, spells cs value rest → rest.length < cs.length) :
    rest.length < cs.length := by
  induction h with
  | last hquote hkey hcolon hvalue hblank =>
    have hquote := hquote.length_le
    have hkey := hkey.length_lt
    have hcolon := hcolon.length_le
    have hvalue := hshort hvalue
    have hblank := hblank.length_le
    simp only [List.length_cons] at hquote hcolon hblank
    omega
  | next hquote hkey hcolon hvalue hblank _ ih =>
    have hquote := hquote.length_le
    have hkey := hkey.length_lt
    have hcolon := hcolon.length_le
    have hvalue := hshort hvalue
    have hblank := hblank.length_le
    simp only [List.length_cons] at hquote hcolon hblank
    omega

theorem Container.length_lt (h : Container spells cs value rest)
    (hshort : ∀ {cs value rest}, spells cs value rest → rest.length < cs.length) :
    rest.length < cs.length := by
  cases h with
  | empty hblank =>
    have := hblank.length_le
    simp only [List.length_cons] at this ⊢
    omega
  | array hitems => exact (hitems.length_lt hshort).trans (Nat.lt_succ_self _)
  | bare hblank =>
    have := hblank.length_le
    simp only [List.length_cons] at this ⊢
    omega
  | object hmembers => exact (hmembers.length_lt hshort).trans (Nat.lt_succ_self _)

theorem Items.first {items : List Json} (h : Items spells cs items rest) :
    ∃ item more, spells cs item more := by
  cases h with
  | last hitem => exact ⟨_, _, hitem⟩
  | next hitem => exact ⟨_, _, hitem⟩

theorem Members.first {members : List (String × Json)} (h : Members spells cs members rest) :
    ∃ text, Blank cs ('"' :: text) := by
  cases h with
  | last hquote => exact ⟨_, hquote⟩
  | next hquote => exact ⟨_, hquote⟩

/-- What the grammar takes for items is read as them, if each item is. -/
theorem Items.items?_eq {items : List Json} (h : Items spells cs items rest)
    (hshort : ∀ {cs value rest}, spells cs value rest → rest.length < cs.length) {bound : Nat}
    (hread : ∀ {cs value rest}, spells cs value rest → Stops rest → cs.length < bound →
      read cs = some (value, rest))
    (hcs : cs.length < bound) {count : Nat} (hcount : cs.length < count) (done : List Json) :
    Read.items? read count done cs = some (done.reverse ++ items, rest) := by
  induction h generalizing count done with
  | last hitem hblank =>
    obtain ⟨count, rfl⟩ := Nat.exists_eq_add_one_of_ne_zero (Nat.ne_zero_of_lt hcount)
    have hitem' := hread hitem (hblank.stops (stops_cons (by decide))) hcs
    have hclose := hblank.skipBlank_eq (by decide)
    simp [Read.items?, hitem', hclose]
  | next hitem hblank _ ih =>
    obtain ⟨count, rfl⟩ := Nat.exists_eq_add_one_of_ne_zero (Nat.ne_zero_of_lt hcount)
    have hitem' := hread hitem (hblank.stops (stops_cons (by decide))) hcs
    have hcomma := hblank.skipBlank_eq (by decide)
    have hbehind := hblank.length_le
    rw [List.length_cons] at hbehind
    have hlt := hshort hitem
    simp [Read.items?, hitem', hcomma, ih (by omega) (by omega : _ < count)]

/-- What the grammar takes for members is read as them, if each value is. -/
theorem Members.members?_eq {members : List (String × Json)} (h : Members spells cs members rest)
    (hshort : ∀ {cs value rest}, spells cs value rest → rest.length < cs.length) {bound : Nat}
    (hread : ∀ {cs value rest}, spells cs value rest → Stops rest → cs.length < bound →
      read cs = some (value, rest))
    (hcs : cs.length < bound) {count : Nat} (hcount : cs.length < count) (done : Keyed Json) :
    Read.members? read count done cs
      = some (members.foldl (fun kept entry => Keyed.insert entry.1 entry.2 kept) done, rest) := by
  induction h generalizing count done with
  | last hquote hkey hcolon hvalue hblank =>
    obtain ⟨count, rfl⟩ := Nat.exists_eq_add_one_of_ne_zero (Nat.ne_zero_of_lt hcount)
    have hquote' := hquote.skipBlank_eq (by decide)
    have hkey' := hkey.string?_eq []
    have hcolon' := hcolon.skipBlank_eq (by decide)
    have hclose := hblank.skipBlank_eq (by decide)
    have hkeyLt := hkey.length_lt
    have hquoteLe := hquote.length_le
    have hcolonLe := hcolon.length_le
    rw [List.length_cons] at hquoteLe hcolonLe
    have hvalue' := hread hvalue (hblank.stops (stops_cons (by decide))) (by omega)
    simp [Read.members?, hquote', hkey', hcolon', hvalue', hclose]
  | next hquote hkey hcolon hvalue hblank _ ih =>
    obtain ⟨count, rfl⟩ := Nat.exists_eq_add_one_of_ne_zero (Nat.ne_zero_of_lt hcount)
    have hquote' := hquote.skipBlank_eq (by decide)
    have hkey' := hkey.string?_eq []
    have hcolon' := hcolon.skipBlank_eq (by decide)
    have hcomma := hblank.skipBlank_eq (by decide)
    have hkeyLt := hkey.length_lt
    have hquoteLe := hquote.length_le
    have hcolonLe := hcolon.length_le
    have hblankLe := hblank.length_le
    rw [List.length_cons] at hquoteLe hcolonLe hblankLe
    have hvalue' := hread hvalue (hblank.stops (stops_cons (by decide))) (by omega)
    have hvalueLt := hshort hvalue
    simp [Read.members?, hquote', hkey', hcolon', hvalue', hcomma,
      ih (by omega) (by omega : _ < count)]

end Containers

theorem Value.length_lt (h : Value levels cs value rest) : rest.length < cs.length := by
  induction levels generalizing cs value rest with
  | zero =>
    obtain ⟨start, hblank, hatom⟩ := h
    exact hatom.length_lt.trans_le hblank.length_le
  | succ levels ih =>
    obtain ⟨start, hblank, hatom | hcontainer⟩ := h
    · exact hatom.length_lt.trans_le hblank.length_le
    · exact (hcontainer.length_lt ih).trans_le hblank.length_le

theorem Unsigned.head {negative : Bool} {n : Number} (h : Unsigned negative cs n rest) :
    ∃ c more, cs = c :: more ∧ c.isDigit = true := by
  have head {digits tail : List Char} (leads : Read.Leads digits) :
      ∃ c more, digits ++ tail = c :: more ∧ c.isDigit = true := by
    obtain ⟨c, more, rfl⟩ := List.exists_cons_of_ne_nil leads.ne_nil
    exact ⟨c, more ++ tail, rfl, leads.isDigit c List.mem_cons_self⟩
  cases h with
  | whole leads => exact head leads
  | float leads => exact head leads

/-- A value begins with what is neither blank nor the end of an array. -/
theorem Atom.head (h : Atom cs value rest) :
    ∃ c more, cs = c :: more ∧ isBlank c = false ∧ c ≠ ']' := by
  cases h with
  | null => exact ⟨_, _, rfl, by decide, by decide⟩
  | yes => exact ⟨_, _, rfl, by decide, by decide⟩
  | no => exact ⟨_, _, rfl, by decide, by decide⟩
  | string => exact ⟨_, _, rfl, by decide, by decide⟩
  | negative => exact ⟨_, _, rfl, by decide, by decide⟩
  | positive hnumber =>
    obtain ⟨c, more, rfl, hdigit⟩ := hnumber.head
    refine ⟨c, more, rfl, ?_, ?_⟩
    · rw [Bool.eq_false_iff]
      intro hblank
      simp only [isBlank, Bool.or_eq_true, beq_iff_eq] at hblank
      rcases hblank with ((rfl | rfl) | rfl) | rfl <;> exact absurd hdigit (by decide)
    · rintro rfl
      exact absurd hdigit (by decide)

theorem Container.head {spells : List Char → Json → List Char → Prop}
    (h : Container spells cs value rest) :
    ∃ c more, cs = c :: more ∧ isBlank c = false ∧ c ≠ ']' := by
  cases h <;> exact ⟨_, _, rfl, by decide, by decide⟩

theorem Value.head (h : Value levels cs value rest) :
    ∃ c more, skipBlank cs = c :: more ∧ isBlank c = false ∧ c ≠ ']' := by
  have head {start : List Char} (hblank : Blank cs start)
      (hstart : ∃ c more, start = c :: more ∧ isBlank c = false ∧ c ≠ ']') :
      ∃ c more, skipBlank cs = c :: more ∧ isBlank c = false ∧ c ≠ ']' := by
    obtain ⟨c, more, rfl, hc, hclose⟩ := hstart
    exact ⟨c, more, hblank.skipBlank_eq hc, hc, hclose⟩
  cases levels with
  | zero =>
    obtain ⟨start, hblank, hatom⟩ := h
    exact head hblank hatom.head
  | succ levels =>
    obtain ⟨start, hblank, hatom | hcontainer⟩ := h
    · exact head hblank hatom.head
    · exact head hblank hcontainer.head

theorem Atom.value?_eq (h : Atom cs value rest) (hrest : Stops rest) (bound levels : Nat) :
    Read.value? bound levels cs = some (value, rest) := by
  cases h with
  | null => simp [Read.value?.eq_def, Read.skipBlank_cons, isBlank]
  | yes => simp [Read.value?.eq_def, Read.skipBlank_cons, isBlank]
  | no => simp [Read.value?.eq_def, Read.skipBlank_cons, isBlank]
  | string hchars =>
    rw [Read.value?_string, hchars.string?_eq]
    rfl
  | positive hnumber =>
    obtain ⟨c, more, rfl, hdigit⟩ := hnumber.head
    rw [Read.value?_number bound levels (Or.inl hdigit), Read.number?_of_digit hdigit,
      hnumber.unsigned?_eq hrest]
    rfl
  | negative hnumber =>
    rw [Read.value?_number bound levels (Or.inr rfl), Read.number?_of_minus,
      hnumber.unsigned?_eq hrest]
    rfl

theorem Container.value?_eq (h : Container (Value levels) cs value rest)
    (hread : ∀ {cs value rest}, Value levels cs value rest → Stops rest → cs.length < bound →
      Read.value? bound levels cs = some (value, rest))
    (hcs : cs.length < bound) : Read.value? bound (levels + 1) cs = some (value, rest) := by
  cases h with
  | empty hblank =>
    have hclose := hblank.skipBlank_eq (by decide)
    simp [Read.value?.eq_def, Read.skipBlank_cons, isBlank, hclose]
  | bare hblank =>
    have hclose := hblank.skipBlank_eq (by decide)
    simp [Read.value?.eq_def, Read.skipBlank_cons, isBlank, hclose]
  | array hitems =>
    obtain ⟨item, more, hitem⟩ := hitems.first
    obtain ⟨c, more, hstart, -, hclose⟩ := hitem.head
    rw [List.length_cons] at hcs
    have hread' := hitems.items?_eq Value.length_lt hread (by omega) (by omega : _ < bound) []
    rw [← items?_skipBlank, hstart] at hread'
    simp [Read.value?.eq_def, Read.skipBlank_cons, isBlank, hstart, hclose, hread']
  | object hmembers =>
    obtain ⟨text, hquote⟩ := hmembers.first
    have hstart := hquote.skipBlank_eq (by decide)
    rw [List.length_cons] at hcs
    have hread' := hmembers.members?_eq Value.length_lt hread (by omega) (by omega : _ < bound) []
    rw [← members?_skipBlank, hstart] at hread'
    simp [Read.value?.eq_def, Read.skipBlank_cons, isBlank, hstart, hread', ofMembers,
      Keyed.ofEntries]

/-- What the grammar takes for a value is read as it, if nothing behind goes on with a numeral. -/
theorem Value.value?_eq (h : Value levels cs value rest) (hrest : Stops rest)
    (hcs : cs.length < bound) : Read.value? bound levels cs = some (value, rest) := by
  induction levels generalizing cs value rest with
  | zero =>
    obtain ⟨start, hblank, hatom⟩ := h
    obtain ⟨c, more, rfl, hc, -⟩ := hatom.head
    rw [← value?_skipBlank, hblank.skipBlank_eq hc, hatom.value?_eq hrest]
  | succ levels ih =>
    obtain ⟨start, hblank, hatom | hcontainer⟩ := h
    · obtain ⟨c, more, rfl, hc, -⟩ := hatom.head
      rw [← value?_skipBlank, hblank.skipBlank_eq hc, hatom.value?_eq hrest]
    · obtain ⟨c, more, rfl, hc, -⟩ := hcontainer.head
      rw [← value?_skipBlank, hblank.skipBlank_eq hc,
        hcontainer.value?_eq ih (hblank.length_le.trans_lt hcs)]

/-- What is spelled with some levels of nesting is spelled with more. -/
theorem Value.mono {more : Nat} (h : Value levels cs value rest) (hle : levels ≤ more) :
    Value more cs value rest := by
  induction levels generalizing more cs value rest with
  | zero =>
    obtain ⟨start, hblank, hatom⟩ := h
    cases more with
    | zero => exact ⟨start, hblank, hatom⟩
    | succ more => exact ⟨start, hblank, Or.inl hatom⟩
  | succ levels ih =>
    obtain ⟨more, rfl⟩ := Nat.exists_eq_add_one_of_ne_zero (Nat.ne_zero_of_lt hle)
    obtain ⟨start, hblank, hatom | hcontainer⟩ := h
    · exact ⟨start, hblank, Or.inl hatom⟩
    · exact ⟨start, hblank, Or.inr (hcontainer.imp fun hvalue =>
        ih hvalue (Nat.le_of_succ_le_succ hle))⟩

end Values

end Grammar

/-! ### Texts -/

variable {text : String} {value other : Json} {levels more : Nat}

theorem DenotesWithin.mono (h : DenotesWithin levels text value) (hle : levels ≤ more) :
    DenotesWithin more text value := by
  obtain ⟨rest, hvalue, hblank⟩ := h
  exact ⟨rest, hvalue.mono hle, hblank⟩

/-- A text that spells a value is read as it, up to blank space. -/
theorem DenotesWithin.value?_eq (h : DenotesWithin levels text value) :
    ∃ rest, Grammar.Blank rest []
      ∧ Read.value? (text.toList.length + 1) levels text.toList = some (value, rest) := by
  obtain ⟨rest, hvalue, hblank⟩ := h
  have hnothing : Grammar.Stops [] := by simp [Grammar.Stops]
  exact ⟨rest, hblank, hvalue.value?_eq (hblank.stops hnothing) (Nat.lt_succ_self _)⟩

/-- **The reader gives a value for a text exactly if the text spells it within the limit of
nesting.** -/
theorem parse?_eq_some_iff : parse? text = some value ↔ DenotesWithin nestingLimit text value := by
  constructor
  · intro h
    rw [parse?, ofChars?] at h
    split at h
    next read rest hread =>
      split at h
      next hempty =>
        obtain rfl := Option.some_inj.mp h
        have hblank := Grammar.blank_skipBlank rest
        rw [List.isEmpty_iff.mp hempty] at hblank
        exact ⟨rest, Grammar.value_of_value? hread, hblank⟩
      next => simp at h
    next => simp at h
  · intro h
    obtain ⟨rest, ⟨blank, hblank, rfl⟩, hread⟩ := h.value?_eq
    have hskip : Read.skipBlank (blank ++ []) = [] := List.dropWhile_append_of_pos hblank
    rw [parse?, ofChars?, hread]
    dsimp only
    rw [hskip]
    rfl

/-- No text spells two values. -/
theorem Denotes.unique (h : Denotes text value) (hother : Denotes text other) : value = other := by
  obtain ⟨levels, h⟩ := h
  obtain ⟨more, hother⟩ := hother
  -- With the levels of both, each is what is read.
  obtain ⟨rest, -, hread⟩ := (h.mono (Nat.le_max_left levels more)).value?_eq
  obtain ⟨rest', -, hread'⟩ := (hother.mono (Nat.le_max_right levels more)).value?_eq
  exact congrArg Prod.fst (Option.some_inj.mp (hread.symm.trans hread'))

/-- What is read of a text is what it spells. -/
theorem denotes_of_parse? (h : parse? text = some value) : Denotes text value :=
  ⟨nestingLimit, parse?_eq_some_iff.mp h⟩

/-- Whether two texts spell one value. -/
def SameSpelled (text other : String) : Prop :=
  ∃ value, Denotes text value ∧ Denotes other value

/-- The canonical bytes of what is read tell what the text spells, and nothing else. -/
theorem contentBytes_eq_iff {text text' : String} (h : parse? text = some value)
    (hother : parse? text' = some other) :
    Document.contentBytes value = Document.contentBytes other ↔ SameSpelled text text' := by
  constructor
  · intro hbytes
    -- The same bytes are read as either value.
    obtain ⟨ordered, hnesting⟩ := ordered_of_parse? h
    obtain ⟨ordered', hnesting'⟩ := ordered_of_parse? hother
    have hread := ofBytes?_contentBytes ordered
    rw [hbytes, ofBytes?_contentBytes ordered', if_pos hnesting, if_pos hnesting'] at hread
    obtain rfl := Option.some_inj.mp hread
    exact ⟨_, denotes_of_parse? h, denotes_of_parse? hother⟩
  · rintro ⟨spelled, hspelled, hspelled'⟩
    rw [(denotes_of_parse? h).unique hspelled, (denotes_of_parse? hother).unique hspelled']

/-- Texts of different canonical forms spell different values. -/
theorem not_sameSpelled {text text' : String} (form form' : String)
    (h : (parse? text).map canonical = some form) (h' : (parse? text').map canonical = some form')
    (hne : form ≠ form') : ¬ SameSpelled text text' := by
  rintro ⟨spelled, hspelled, hspelled'⟩
  obtain ⟨value, hread, rfl⟩ := Option.map_eq_some_iff.mp h
  obtain ⟨other, hread', rfl⟩ := Option.map_eq_some_iff.mp h'
  rw [(denotes_of_parse? hread).unique hspelled, (denotes_of_parse? hread').unique hspelled'] at hne
  exact hne rfl

/-- The canonical form of what is read spells the same value, and so do its bytes. -/
theorem normal_of_parse? (h : parse? text = some value) :
    Denotes value.canonical value
      ∧ ofBytes? (Document.contentBytes value) = some value := by
  obtain ⟨ordered, hnesting⟩ := ordered_of_parse? h
  refine ⟨denotes_of_parse? (parse?_canonical_of_nesting ordered hnesting), ?_⟩
  rw [ofBytes?_contentBytes ordered, if_pos hnesting]

end Json

end PlanHistory
