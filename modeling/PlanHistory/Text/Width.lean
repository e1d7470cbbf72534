/-
How many columns a line of text takes on a terminal.

A character takes the columns it takes by itself, unless it makes one sign with what
stands behind it.  So a line is measured from its end: `place` looks at a character and
at what stands behind it, and says how many columns the character adds, fewer than none
if the two shrink to one sign.

* an emoji takes two columns with a skin tone on it and with the emoji joined to it;
* a variation selector asks for the emoji form, the text form or the wide form of the
  character before it;
* in several scripts two letters make one sign.
-/
import PlanHistory.Text.CharRange
import PlanHistory.Text.EmojiRanges
import PlanHistory.Text.WidthRanges

namespace PlanHistory

namespace Text

/-- Letters that make one sign with the letter before them. -/
inductive Ligand where
  /-- A Hebrew lamed, behind an alef. -/
  | lamed
  /-- A Buginese ya, behind an a with a vowel sign. -/
  | ya
  /-- A Buginese ya and the vowel sign before it. -/
  | vowelYa
  /-- A Tifinagh consonant, behind another. -/
  | tifinagh
  /-- A Tifinagh consonant and the joiner before it. -/
  | joinedTifinagh
  /-- A Lisu tone letter, behind another. -/
  | tone
  /-- An Old Turkic i, behind an ec. -/
  | orkhonI
  /-- A Khmer letter, which goes below the letter before it. -/
  | khmer
deriving DecidableEq

/-- What stands behind a character, as far as the character can join it. -/
inductive Joint where
  /-- Nothing that can be joined. -/
  | nothing
  /-- A skin tone. -/
  | skinTone
  /-- An emoji, with all that belongs to it. -/
  | emoji
  /-- A joiner and an emoji. -/
  | joiner
  /-- The box of a key, a joiner and an emoji. -/
  | keycap
  /-- One letter of a flag. -/
  | flagLetter
  /-- Letters of flags, two at least. -/
  | flagLetters
  /-- The second letter of a flag, a joiner and an emoji. -/
  | joinedFlagLetter
  /-- Flags, the last one joined to an emoji. -/
  | joinedFlags
  /-- One letter, then flags, the last one joined to an emoji. -/
  | oddJoinedFlags
  /-- So many tag letters, the end of a tagged flag, a joiner and an emoji. -/
  | tagLetters (count : Nat)
  /-- So many tag digits, then tag letters as above. -/
  | tagDigits (count : Nat)
  /-- The Kirat Rai vowel sign e. -/
  | vowelE
  /-- The Kirat Rai vowel sign ai. -/
  | vowelAI
  /-- An Arabic alef. -/
  | alef
  /-- A letter that makes one sign with the one before it, and whether it is joined. -/
  | ligand (letter : Ligand) (joined : Bool)
deriving DecidableEq

/-- The forms that a variation selector asks of the character before it. -/
inductive Form where
  | emoji
  | text
  | wide
deriving DecidableEq

/-- The form that a character asks for, if it is a selector. -/
def Form.of? (c : Char) : Option Form :=
  if c == '\uFE0F' then some .emoji
  else if c == '\uFE0E' then some .text
  else if c == '\uFE01' then some .wide
  else none

/-- What stands behind a character: what it can join, and the form asked of it. -/
structure Sequel where
  joint : Joint
  asked : Option Form
deriving DecidableEq

namespace Joint

/-- Whether letters join over a selector. -/
def isLetter : Joint → Bool
  | .alef | .ligand .. => true
  | _ => false

/-- Whether an emoji is to be joined. -/
def isJoiner : Joint → Bool
  | .joiner | .keycap => true
  | _ => false

/-- With no form asked for. -/
def plain (joint : Joint) : Sequel :=
  ⟨joint, none⟩

/-- With a form asked for by a selector, which hides what it stands before from the
characters that cannot join over it. -/
def ask (joint : Joint) (form : Form) : Sequel :=
  if joint.isLetter || form == .emoji && joint.isJoiner then ⟨joint, some form⟩
  else ⟨.nothing, some form⟩

end Joint

/-- What a character can join that does not have the form asked of it. -/
def Sequel.visible (behind : Sequel) : Joint :=
  if behind.asked.isNone || behind.joint.isLetter then behind.joint else .nothing

/-- Whether a character is from a range. -/
def isFrom (first last : Nat) (c : Char) : Bool :=
  first ≤ c.toNat && c.toNat ≤ last

/-- How many columns a character takes by itself. -/
def charWidth (c : Char) : Nat :=
  if c.toNat ≤ 0xA0 then 1
  else if c.toNat == 0x17D8 then 3
  else if isWithin zeroWidthRanges c then 0
  else if isWithin wideRanges c then 2
  else 1

/-- Whether a character is half a flag. -/
def isFlagLetter (c : Char) : Bool :=
  isFrom 0x1F1E6 0x1F1FF c

/-- Whether a character gives the emoji before it a skin tone. -/
def isSkinTone (c : Char) : Bool :=
  isFrom 0x1F3FB 0x1F3FF c

/-- Whether a character has a text form of one column, unlike its usual form. -/
def narrowsAsText (c : Char) : Bool :=
  isWithin variationRanges c && isWithin emojiRanges c && !isFrom 0x1F200 0x1F2FF c

/-- Whether a character is a quotation mark with a wide form. -/
def widensAsQuote (c : Char) : Bool :=
  c == '‘' || c == '’' || c == '“' || c == '”'

/-- Whether a character is an Arabic alef. -/
def isAlef (c : Char) : Bool :=
  isWithin [(0x622, 0x623), (0x625, 0x625), (0x627, 0x627), (0x671, 0x673), (0x675, 0x675),
    (0x773, 0x774), (0x870, 0x882)] c

/-- Whether a character is an Arabic lam. -/
def isLam (c : Char) : Bool :=
  isWithin [(0x644, 0x644), (0x6B5, 0x6B8), (0x76A, 0x76A), (0x8A6, 0x8A6), (0x8C7, 0x8C7)] c

/-- Whether a character is a Khmer letter with a form that goes below another. -/
def isKhmerBelow (c : Char) : Bool :=
  isWithin [(0x1780, 0x1782), (0x1784, 0x1787), (0x1789, 0x178C), (0x178E, 0x1793),
    (0x1795, 0x1798), (0x179B, 0x179D), (0x17A0, 0x17A0), (0x17A2, 0x17A2), (0x17A7, 0x17A7),
    (0x17AB, 0x17AC), (0x17AF, 0x17AF)] c

/-- Whether a character is a Tifinagh consonant. -/
def isTifinagh (c : Char) : Bool :=
  isFrom 0x2D31 0x2D65 c || c.toNat == 0x2D6F

/-- Whether Arabic letters join over a character. -/
def isTransparent (c : Char) : Bool :=
  charWidth c == 0 && !isWithin opaqueRanges c

/-- Whether a character is a mark that is not shown, so that letters join over it. -/
def isHiddenMark (c : Char) : Bool :=
  isWithin [(0x34F, 0x34F), (0x17B4, 0x17B5), (0x180B, 0x180D), (0x180F, 0x180F),
    (0xFE00, 0xFE0F), (0xE0100, 0xE01EF)] c

/-- What a character is for the one before it. -/
def Joint.of (c : Char) : Joint :=
  if isSkinTone c then .skinTone
  else if isFlagLetter c then .flagLetter
  else if isWithin emojiRanges c then .emoji
  else if isAlef c then .alef
  else if c.toNat == 0x5DC then .ligand .lamed false
  else if c.toNat == 0x1A10 then .ligand .ya false
  else if isTifinagh c then .ligand .tifinagh false
  else if isFrom 0xA4FC 0xA4FD c then .ligand .tone true
  else if c.toNat == 0x10C03 then .ligand .orkhonI false
  else if isKhmerBelow c then .ligand .khmer true
  else if c.toNat == 0x16D67 then .vowelE
  else if c.toNat == 0x16D68 then .vowelAI
  else .nothing

/-- How many columns a letter adds that makes one sign with the one behind it, and what
the sign is for the letter before. -/
def ligate? (c : Char) (joined : Bool) : Ligand → Option (Int × Joint)
  | .lamed => if joined && c.toNat == 0x5D0 then some (0, .nothing) else none
  | .ya => if joined && c.toNat == 0x1A17 then some (0, .ligand .vowelYa true) else none
  | .vowelYa => if c.toNat == 0x1A15 then some (0, .nothing) else none
  | .tifinagh =>
    if c.toNat == 0x2D7F then some (1, .ligand .joinedTifinagh true)
    else if joined && isTifinagh c then some (0, .nothing)
    else none
  | .joinedTifinagh => if isTifinagh c then some (-1, .nothing) else none
  | .tone => if isFrom 0xA4F8 0xA4FB c then some (0, .nothing) else none
  | .orkhonI => if joined && c.toNat == 0x10C32 then some (0, .nothing) else none
  | .khmer => if c.toNat == 0x17D2 then some (-1, .nothing) else none

/-- How many columns a character adds that makes one sign with what stands behind it,
and what the sign is for the character before. -/
def join? (c : Char) : Joint → Option (Int × Joint)
  | .nothing | .keycap => none
  | .skinTone =>
    if isWithin skinToneBaseRanges c then some (0, .emoji)
    else if c == '\u200D' then some (0, .joiner)
    else none
  | .emoji => if c == '\u200D' then some (0, .joiner) else none
  | .joiner =>
    if c == '\u20E3' then some (0, .keycap)
    else if isFlagLetter c then some (1, .joinedFlagLetter)
    else if isSkinTone c then some (0, .skinTone)
    else if c.toNat == 0xE007F then some (0, .tagLetters 0)
    else if isWithin emojiRanges c then some (0, .emoji)
    else none
  | .flagLetter => if isFlagLetter c then some (1, .flagLetters) else none
  | .flagLetters =>
    if isFlagLetter c then some (1, .flagLetters)
    else if c == '\u200D' then some (0, .joiner)
    else none
  | .joinedFlagLetter => if isFlagLetter c then some (-1, .joinedFlags) else none
  | .joinedFlags =>
    if isFlagLetter c then some (3, .oddJoinedFlags)
    else if c == '\u200D' then some (0, .joiner)
    else none
  | .oddJoinedFlags =>
    if isFlagLetter c then some (-1, .joinedFlags)
    else if c == '\u200D' then some (0, .joiner)
    else none
  | .tagLetters count =>
    if isFrom 0xE0061 0xE007A c && count < 6 then some (0, .tagLetters (count + 1))
    else if isFrom 0xE0030 0xE0039 c && count ≤ 4 then some (0, .tagDigits 1)
    else if c == '🏴' && 3 ≤ count then some (0, .emoji)
    else none
  | .tagDigits count =>
    if isFrom 0xE0030 0xE0039 c && count < 3 then some (0, .tagDigits (count + 1))
    else if c == '🏴' && count == 3 then some (0, .emoji)
    else none
  | .vowelE =>
    if c.toNat == 0x16D63 || c.toNat == 0x16D69 then some (0, .nothing)
    else if c.toNat == 0x16D67 then some (0, .vowelAI)
    else if c.toNat == 0x16D68 then some (1, .vowelE)
    else none
  | .vowelAI => if c.toNat == 0x16D63 then some (0, .nothing) else none
  | .alef =>
    if isLam c then some (0, .nothing)
    else if isTransparent c then some (0, .alef)
    else none
  | .ligand letter joined =>
    if c == '\u200D' then some (0, .ligand letter true)
    else if isHiddenMark c then some (0, .ligand letter joined)
    else ligate? c joined letter

/-- How many columns a character adds in its usual form in front of what it may join,
and what the two are for the character before. -/
def placeUsual (c : Char) (joint : Joint) : Int × Sequel :=
  if c.toNat ≤ 0xA0 then (1, Joint.nothing.plain)
  else
    match Form.of? c, join? c joint with
    | some form, _ => (0, joint.ask form)
    | none, some (added, sign) => (added, sign.plain)
    | none, none => (charWidth c, (Joint.of c).plain)

/-- How many columns a character adds in a form that a selector behind it asks for, if
it has that form, and what the two are for the character before. -/
def placeAsked? (c : Char) (joint : Joint) : Form → Option (Int × Sequel)
  | .emoji =>
    if isWithin variationRanges c then some (if joint.isJoiner then 0 else 2, Joint.emoji.plain)
    else none
  | .text => if narrowsAsText c then some (1, Joint.nothing.plain) else none
  | .wide => if widensAsQuote c then some (2, Joint.nothing.plain) else none

/-- How many columns a character adds in front of what stands behind it, and what the
two are for the character before. -/
def place (c : Char) (behind : Sequel) : Int × Sequel :=
  (behind.asked.bind (placeAsked? c behind.joint)).getD (placeUsual c behind.visible)

/-- How many columns characters take, and what they are for the character before. -/
def columns : List Char → Int × Sequel
  | [] => (0, Joint.nothing.plain)
  | c :: rest =>
    let (taken, behind) := columns rest
    let (added, sequel) := place c behind
    (taken + added, sequel)

/-- How many columns a line takes. -/
def width (line : String) : Nat :=
  (columns line.toList).1.toNat

end Text

end PlanHistory
