/-
Strings and numbers read back.

* **`Json.Read.string?_quoted`** — a text between quotes reads back;
* **`Json.Read.number?_numberChars`** — so does a number, an integer as an integer and
  a double as that double.

Both read up to what may follow a value inside a text: `Json.Read.Closes`.
-/
import Mathlib.Tactic.Linarith
import PlanHistory.Json.Parser
import PlanHistory.Json.Printer
import PlanHistory.Proofs.Number.Binary64
import PlanHistory.Proofs.Number.Decimal

namespace PlanHistory

namespace Json

namespace Read

/-! ### Strings -/

theorem hexValue?_hexDigit {n : Nat} (h : n < 16) : hexValue? (hexDigit n) = some n := by
  have all : ∀ n : Fin 16, hexValue? (hexDigit n) = some n.val := by decide
  exact all ⟨n, h⟩

theorem unit?_control {n : Nat} (h : n < 0x20) :
    unit? '0' '0' (hexDigit (n / 16)) (hexDigit (n % 16)) = some n := by
  rw [unit?, hexValue?_hexDigit (by omega), hexValue?_hexDigit (by omega),
    show hexValue? '0' = some 0 from by decide]
  simp only [Option.some.injEq]
  omega

/-- An escaped character reads back. -/
theorem string?_escape (read : List Char) (c : Char) (rest : List Char) :
    string? read (escape c ++ rest) = string? (c :: read) rest := by
  by_cases hquote : c = '"'
  · subst hquote; simp [escape, string?, escaped?]
  by_cases hslash : c = '\\'
  · subst hslash; simp [escape, string?, escaped?]
  by_cases hn : c = '\n'
  · subst hn; simp [escape, string?, escaped?]
  by_cases hr : c = '\r'
  · subst hr; simp [escape, string?, escaped?]
  by_cases ht : c = '\t'
  · subst ht; simp [escape, string?, escaped?]
  by_cases hb : c = '\x08'
  · subst hb; simp [escape, string?, escaped?]
  by_cases hf : c = '\x0c'
  · subst hf; simp [escape, string?, escaped?]
  rw [escape, if_neg hquote, if_neg hslash, if_neg hn, if_neg hr, if_neg ht, if_neg hb,
    if_neg hf]
  by_cases hlow : c.toNat < 0x20
  · rw [if_pos hlow]
    simp only [List.cons_append, List.nil_append]
    rw [string?, unit?_control hlow]
    dsimp only
    rw [if_neg (by omega), if_neg (by omega), Char.ofNat_toNat]
  · rw [if_neg hlow, List.singleton_append, string?]
    · rw [if_neg hlow]
    · exact hquote
    · exact fun _ _ _ _ _ h _ => hslash h
    · exact fun _ _ h _ => hslash h

/-- A text between quotes reads back. -/
theorem string?_quoted (text : String) (rest : List Char) :
    string? [] (text.toList.flatMap escape ++ '"' :: rest) = some (text.toList, rest) := by
  have all : ∀ (cs read : List Char), string? read (cs.flatMap escape ++ '"' :: rest)
      = some (read.reverse ++ cs, rest) := by
    intro cs
    induction cs with
    | nil => intro read; simp [string?]
    | cons c cs ih =>
      intro read
      rw [List.flatMap_cons, List.append_assoc, string?_escape, ih, List.reverse_cons,
        List.append_assoc, List.singleton_append]
  simpa using all text.toList []

/-! ### What follows a value -/

/-- What may follow a value inside a text: nothing, a comma or a closing bracket. -/
def Closes (rest : List Char) : Prop :=
  ∀ c ∈ rest.head?, c = ',' ∨ c = ']' ∨ c = '}'

theorem closes_nil : Closes [] := by simp [Closes]

theorem closes_cons {c : Char} {rest : List Char} (h : c = ',' ∨ c = ']' ∨ c = '}') :
    Closes (c :: rest) := by
  simpa [Closes] using h

theorem Closes.cases {rest : List Char} (h : Closes rest) :
    rest = [] ∨ ∃ c more, rest = c :: more ∧ (c = ',' ∨ c = ']' ∨ c = '}') := by
  cases rest with
  | nil => exact Or.inl rfl
  | cons c more => exact Or.inr ⟨c, more, rfl, h c rfl⟩

theorem Closes.endsDigits {rest : List Char} (h : Closes rest) : Decimal.EndsDigits rest := by
  intro c hc
  rcases h c hc with rfl | rfl | rfl <;> decide

theorem Closes.fraction? {rest : List Char} (h : Closes rest) :
    fraction? rest = some ([], rest) := by
  rcases h.cases with rfl | ⟨c, more, rfl, rfl | rfl | rfl⟩ <;> rfl

theorem Closes.power? {rest : List Char} (h : Closes rest) : power? rest = some (none, rest) := by
  rcases h.cases with rfl | ⟨c, more, rfl, rfl | rfl | rfl⟩ <;> rfl

theorem Closes.skipBlank {rest : List Char} (h : Closes rest) : skipBlank rest = rest := by
  rcases h.cases with rfl | ⟨c, more, rfl, rfl | rfl | rfl⟩ <;> rfl

/-! ### Numbers -/

/-- Digits that may begin a numeral: some, and no zero before others. -/
structure Leads (digits : List Char) : Prop where
  ne_nil : digits ≠ []
  isDigit : ∀ c ∈ digits, c.isDigit
  noZero : digits.head? = some '0' → digits.length = 1

theorem leads_numeral (n : Nat) : Leads (Decimal.numeral n) where
  ne_nil := Decimal.numeral_ne_nil n
  isDigit _ := Decimal.isDigit_of_mem_numeral
  noZero h := by
    by_cases hn : n = 0
    · rw [hn]; rfl
    · exact absurd h (Decimal.head?_numeral_ne_zero hn)

theorem Leads.append {digits more : List Char} (h : Leads digits)
    (hzero : digits.head? ≠ some '0') (hmore : ∀ c ∈ more, c.isDigit) :
    Leads (digits ++ more) where
  ne_nil := List.append_ne_nil_of_left_ne_nil h.ne_nil _
  isDigit c hc := (List.mem_append.mp hc).elim (h.isDigit c) (hmore c)
  noZero hhead := by
    obtain ⟨c, cs, rfl⟩ := List.exists_cons_of_ne_nil h.ne_nil
    exact absurd hhead hzero

/-- What a numeral spells, by its parts. -/
theorem unsigned?_eq {digits tail places tail' rest : List Char} {power : Option Int}
    (negative : Bool) (hlead : Leads digits) (hend : Decimal.EndsDigits tail)
    (hplaces : fraction? tail = some (places, tail')) (hpower : power? tail' = some (power, rest)) :
    unsigned? negative (digits ++ tail)
      = (let float? := (Decimal.toBinary64? negative
            ⟨Decimal.ofNumeral (digits ++ places), power.getD 0 - places.length⟩).map Number.float
        if places.isEmpty && power.isNone then
          match wideInt? negative (Decimal.ofNumeral digits) with
          | some i => some (.whole i)
          | none => float?
        else float?).map fun number => (number, rest) := by
  have hno : (digits.isEmpty || (digits.head? == some '0' && digits.length != 1)) = false := by
    rw [Bool.or_eq_false_iff]
    refine ⟨by simp [hlead.ne_nil], ?_⟩
    by_cases hzero : digits.head? = some '0'
    · simp [hlead.noZero hzero]
    · simp [hzero]
  rw [unsigned?, Decimal.takeWhile_digits hlead.isDigit hend,
    Decimal.dropWhile_digits hlead.isDigit hend]
  dsimp only
  rw [hno, if_neg (by decide), hplaces]
  dsimp only
  rewrite [hpower]
  rfl

theorem wideInt?_natAbs (i : WideInt) (h : ¬ i.val < 0) :
    wideInt? false i.val.natAbs = some i := by
  have hi : ((i.val.natAbs : Nat) : Int) = i.val := by omega
  simp [wideInt?, hi, i.property.1, i.property.2]

theorem wideInt?_natAbs_neg (i : WideInt) (h : i.val < 0) :
    wideInt? true i.val.natAbs = some i := by
  have hi : -((i.val.natAbs : Nat) : Int) = i.val := by omega
  have hne : (i.val.natAbs == 0) = false := by
    rw [beq_eq_false_iff_ne]
    omega
  rw [wideInt?, hne, Bool.and_false, if_neg (by decide)]
  simp only [↓reduceIte]
  rw [dif_pos (by rw [hi]; exact i.property)]
  exact congrArg some (Subtype.ext hi)

theorem number?_of_minus (rest : List Char) : number? ('-' :: rest) = unsigned? true rest := rfl

theorem number?_of_digit {c : Char} {rest : List Char} (h : c.isDigit) :
    number? (c :: rest) = unsigned? false (c :: rest) := by
  rw [number?]
  rintro rest' heq
  obtain ⟨rfl, -⟩ := List.cons.inj heq
  exact absurd h (by decide)

/-- The signed text of a numeral is read under its sign. -/
theorem number?_signed {digits : List Char} (negative : Bool) (tail : List Char)
    (hlead : Leads digits) :
    number? ((if negative then '-' :: (digits ++ tail) else digits ++ tail))
      = unsigned? negative (digits ++ tail) := by
  cases negative with
  | true => exact number?_of_minus _
  | false =>
    obtain ⟨c, cs, rfl⟩ := List.exists_cons_of_ne_nil hlead.ne_nil
    exact number?_of_digit (hlead.isDigit c List.mem_cons_self)

theorem number?_whole (i : WideInt) {rest : List Char} (hrest : Closes rest) :
    number? (Decimal.signedNumeral i.val ++ rest) = some (.whole i, rest) := by
  have hread (negative : Bool) := unsigned?_eq negative (leads_numeral i.val.natAbs)
    hrest.endsDigits hrest.fraction? hrest.power?
  rw [Decimal.ofNumeral_numeral] at hread
  rw [Decimal.signedNumeral]
  split
  next hneg =>
    have hsign := number?_signed true rest (leads_numeral i.val.natAbs)
    rw [if_pos rfl] at hsign
    rw [List.cons_append, hsign, hread, wideInt?_natAbs_neg i hneg]
    rfl
  next hpos =>
    have hsign := number?_signed false rest (leads_numeral i.val.natAbs)
    rw [if_neg (by decide)] at hsign
    rw [hsign, hread, wideInt?_natAbs i hpos]
    rfl

/-! ### Doubles -/

theorem fraction?_places {places rest : List Char} (hne : places ≠ [])
    (hplaces : ∀ c ∈ places, c.isDigit) (hrest : Decimal.EndsDigits rest) :
    fraction? ('.' :: (places ++ rest)) = some (places, rest) := by
  rw [fraction?, Decimal.takeWhile_digits hplaces hrest, Decimal.dropWhile_digits hplaces hrest]
  obtain ⟨c, cs, rfl⟩ := List.exists_cons_of_ne_nil hne
  rfl

theorem power?_signedPower (power : Int) {rest : List Char} (hrest : Decimal.EndsDigits rest) :
    power? ('e' :: (Decimal.signedPower power ++ rest)) = some (some power, rest) := by
  rw [power?, Decimal.power?_signed power hrest]
  rfl

/-- A text is the numeral of a decimal, perhaps with more places, and shows by a point or
a power of ten that it is no integer. -/
structure Spells (size rest : List Char) (d : Decimal) where
  digits : List Char
  tail : List Char
  places : List Char
  tail' : List Char
  power : Option Int
  zeros : Nat
  text : size ++ rest = digits ++ tail
  leads : Leads digits
  ends : Decimal.EndsDigits tail
  fraction : fraction? tail = some (places, tail')
  scale : power? tail' = some (power, rest)
  noInteger : (places.isEmpty && power.isNone) = false
  value : (⟨Decimal.ofNumeral (digits ++ places), power.getD 0 - places.length⟩ : Decimal)
    = ⟨d.digits * 10 ^ zeros, d.exponent - zeros⟩

theorem Spells.unsigned? {size rest : List Char} {x : Binary64}
    (h : Spells size rest (Binary64.shortest x.rank)) :
    unsigned? x.negative (h.digits ++ h.tail) = some (.float x, rest) := by
  have hrank : (⟨Decimal.ofNumeral (h.digits ++ h.places),
      h.power.getD 0 - h.places.length⟩ : Decimal).rank? = some x.rank := by
    rw [h.value, Decimal.rank?_scale]
    exact Binary64.rank?_shortest x.finite
  rw [unsigned?_eq x.negative h.leads h.ends h.fraction h.scale]
  dsimp only
  rw [h.noInteger, if_neg (by decide), Decimal.toBinary64?_of_rank? hrank]
  rfl

/-- Digits, a point and more digits spell the decimal that they are the digits of, moved by
as many places as stand behind the point. -/
theorem spells_pointed {d : Decimal} {digits places rest : List Char} (zeros : Nat)
    (hleads : Leads digits) (hplaces : places ≠ []) (hdigit : ∀ c ∈ places, c.isDigit)
    (hrest : Closes rest) (hvalue : Decimal.ofNumeral (digits ++ places) = d.digits * 10 ^ zeros)
    (hscale : -(places.length : Int) = d.exponent - zeros) :
    Nonempty (Spells (digits ++ '.' :: places) rest d) := by
  refine ⟨⟨digits, '.' :: (places ++ rest), places, rest, none, zeros, by simp, hleads,
    Decimal.endsDigits_cons (by decide), fraction?_places hplaces hdigit hrest.endsDigits,
    hrest.power?, by simp [hplaces], ?_⟩⟩
  rw [hvalue, Option.getD_none, Int.zero_sub, hscale]

/-- A fraction below one: zeros behind the point, then the digits. -/
theorem spells_fraction {d : Decimal} (hlead : d.lead < 0) {rest : List Char}
    (hrest : Closes rest) :
    Nonempty (Spells ('0' :: '.' :: List.replicate (-d.lead - 1).toNat '0'
      ++ Decimal.numeral d.digits) rest d) := by
  have hplaces : ∀ c ∈ List.replicate (-d.lead - 1).toNat '0' ++ Decimal.numeral d.digits,
      c.isDigit := by
    intro c hc
    rcases List.mem_append.mp hc with hc | hc
    · rw [List.eq_of_mem_replicate hc]; rfl
    · exact Decimal.isDigit_of_mem_numeral hc
  have hvalue : Decimal.ofNumeral (['0'] ++ (List.replicate (-d.lead - 1).toNat '0'
      ++ Decimal.numeral d.digits)) = d.digits * 10 ^ 0 := by
    rw [Decimal.ofNumeral_append, Decimal.ofNumeral_append, Decimal.ofNumeral_zeros,
      Decimal.ofNumeral_numeral, show Decimal.ofNumeral ['0'] = 0 from rfl]
    omega
  have hscale : -((List.replicate (-d.lead - 1).toNat '0'
      ++ Decimal.numeral d.digits).length : Int) = d.exponent - (0 : Nat) := by
    rw [List.length_append, List.length_replicate]
    rw [Decimal.lead] at hlead ⊢
    omega
  exact spells_pointed 0 ⟨by simp, by simp, by simp⟩ (by simp [Decimal.numeral_ne_nil]) hplaces
    hrest hvalue hscale

/-- A whole number: the digits, zeros up to the point and a zero behind it. -/
theorem spells_whole {d : Decimal} (hd : d.digits ≠ 0 ∨ d = ⟨0, 0⟩) (hlead : ¬ d.lead < 0)
    (hlong : (Decimal.numeral d.digits).length ≤ d.lead.toNat + 1) {rest : List Char}
    (hrest : Closes rest) :
    Nonempty (Spells (Decimal.numeral d.digits
      ++ List.replicate (d.lead.toNat + 1 - (Decimal.numeral d.digits).length) '0'
      ++ ['.', '0']) rest d) := by
  have hleads : Leads (Decimal.numeral d.digits
      ++ List.replicate (d.lead.toNat + 1 - (Decimal.numeral d.digits).length) '0') := by
    rcases hd with hne | rfl
    · refine (leads_numeral _).append (Decimal.head?_numeral_ne_zero hne) fun c hc => ?_
      rw [List.eq_of_mem_replicate hc]; rfl
    · exact leads_numeral 0
  refine spells_pointed (d.lead.toNat + 1 - (Decimal.numeral d.digits).length + 1) hleads
    (by simp) (by simp) hrest ?_ ?_
  · rw [Decimal.ofNumeral_append, Decimal.ofNumeral_append, Decimal.ofNumeral_zeros,
      Decimal.ofNumeral_numeral, show Decimal.ofNumeral ['0'] = 0 from rfl,
      List.length_replicate, List.length_singleton, Nat.pow_one, Nat.add_zero, Nat.add_zero,
      Nat.mul_assoc, ← Nat.pow_succ]
  · rw [Decimal.lead] at hlead hlong ⊢
    rw [List.length_singleton]
    omega

/-- The point stands among the digits. -/
theorem spells_split {d : Decimal} (hd : d.digits ≠ 0) (hlead : ¬ d.lead < 0)
    (hshort : ¬ (Decimal.numeral d.digits).length ≤ d.lead.toNat + 1) {rest : List Char}
    (hrest : Closes rest) :
    Nonempty (Spells ((Decimal.numeral d.digits).take (d.lead.toNat + 1)
      ++ '.' :: (Decimal.numeral d.digits).drop (d.lead.toNat + 1)) rest d) := by
  have hdigit : ∀ c ∈ Decimal.numeral d.digits, c.isDigit := fun _ =>
    Decimal.isDigit_of_mem_numeral
  have hleads : Leads ((Decimal.numeral d.digits).take (d.lead.toNat + 1)) := by
    refine ⟨?_, fun c hc => hdigit c (List.mem_of_mem_take hc), fun hzero => ?_⟩
    · rw [← List.length_pos_iff, List.length_take]
      omega
    · rw [List.head?_take, if_neg (by omega)] at hzero
      exact absurd hzero (Decimal.head?_numeral_ne_zero hd)
  have hdrop : (Decimal.numeral d.digits).drop (d.lead.toNat + 1) ≠ [] := by
    rw [← List.length_pos_iff, List.length_drop]
    omega
  refine spells_pointed 0 hleads hdrop (fun c hc => hdigit c (List.mem_of_mem_drop hc)) hrest
    ?_ ?_
  · rw [List.take_append_drop, Decimal.ofNumeral_numeral, Nat.pow_zero, Nat.mul_one]
  · rw [List.length_drop]
    rw [Decimal.lead] at hlead hshort ⊢
    omega

theorem spells_positional {d : Decimal} (hd : d.digits ≠ 0 ∨ d = ⟨0, 0⟩) {rest : List Char}
    (hrest : Closes rest) : Nonempty (Spells (d.positional Layout.json) rest d) := by
  rw [Decimal.positional]
  split
  next hlead => exact spells_fraction hlead hrest
  next hlead =>
    split
    next hlong => exact spells_whole hd hlead hlong hrest
    next hshort =>
      -- Zero has one digit, so its point is behind it.
      have hne : d.digits ≠ 0 := by
        rcases hd with hne | rfl
        · exact hne
        · exact absurd (by decide) hshort
      exact spells_split hne hlead hshort hrest

theorem spells_scientific (d : Decimal) {rest : List Char} (hrest : Closes rest) :
    Nonempty (Spells d.scientific rest d) := by
  have hpower : (if d.lead < 0 then '-' :: Decimal.numeral d.lead.natAbs
      else '+' :: Decimal.numeral d.lead.natAbs) = Decimal.signedPower d.lead := rfl
  have hvalue := Decimal.ofNumeral_numeral d.digits
  have hdigit : ∀ c ∈ Decimal.numeral d.digits, c.isDigit := fun _ =>
    Decimal.isDigit_of_mem_numeral
  have hlead : d.lead = (Decimal.numeral d.digits).length - 1 + d.exponent := rfl
  rw [Decimal.scientific, hpower]
  split
  next hnil => exact absurd hnil (Decimal.numeral_ne_nil _)
  next digit hone =>
    rw [hone] at hvalue hdigit hlead
    -- One digit stands without a point.
    refine ⟨⟨[digit], 'e' :: (Decimal.signedPower d.lead ++ rest), [],
      'e' :: (Decimal.signedPower d.lead ++ rest), some d.lead, 0, by simp,
      ⟨by simp, hdigit, by simp⟩, Decimal.endsDigits_cons (by decide), rfl,
      power?_signedPower _ hrest.endsDigits, rfl, ?_⟩⟩
    rw [List.append_nil, hvalue, hlead]
    simp
  next digit more _ hmore =>
    rw [hmore] at hvalue hdigit hlead
    have hne : more ≠ [] := by
      rintro rfl
      simp_all
    -- The point stands behind the first digit.
    refine ⟨⟨[digit], '.' :: (more ++ 'e' :: (Decimal.signedPower d.lead ++ rest)), more,
      'e' :: (Decimal.signedPower d.lead ++ rest), some d.lead, 0, by simp,
      ⟨by simp, fun c hc => hdigit c (by simp_all), by simp⟩,
      Decimal.endsDigits_cons (by decide),
      fraction?_places hne (fun c hc => hdigit c (List.mem_cons_of_mem _ hc))
        (Decimal.endsDigits_cons (by decide)),
      power?_signedPower _ hrest.endsDigits, by simp, ?_⟩⟩
    rw [List.singleton_append, hvalue, hlead, List.length_cons]
    simp

theorem spells_shortest (x : Binary64) {rest : List Char} (hrest : Closes rest) :
    Nonempty (Spells ((Binary64.shortest x.rank).render Layout.json) rest
      (Binary64.shortest x.rank)) := by
  have hd : (Binary64.shortest x.rank).digits ≠ 0 ∨ Binary64.shortest x.rank = ⟨0, 0⟩ := by
    by_cases hzero : x.rank = 0
    · exact Or.inr (by rw [Binary64.shortest, if_pos hzero])
    · exact Or.inl (Binary64.digits_shortest_ne_zero x.finite hzero)
  rw [Decimal.render]
  split
  · exact spells_positional hd hrest
  · exact spells_scientific _ hrest

theorem number?_float (x : Binary64) {rest : List Char} (hrest : Closes rest) :
    number? (x.render Layout.json ++ rest) = some (.float x, rest) := by
  obtain ⟨spelled⟩ := spells_shortest x hrest
  have hsign := number?_signed x.negative spelled.tail spelled.leads
  rw [spelled.unsigned?, ← spelled.text] at hsign
  rw [← hsign, Binary64.render]
  congr 1
  split <;> rfl

theorem numberChars_eq_cons (n : Number) :
    ∃ c cs, numberChars n = c :: cs ∧ (c.isDigit ∨ c = '-') := by
  cases n with
  | whole i =>
    rw [numberChars, Decimal.signedNumeral]
    obtain ⟨c, cs, hcs⟩ := List.exists_cons_of_ne_nil (Decimal.numeral_ne_nil i.val.natAbs)
    have hc : c.isDigit := Decimal.isDigit_of_mem_numeral (by rw [hcs]; exact List.mem_cons_self)
    split
    · exact ⟨_, _, rfl, Or.inr rfl⟩
    · exact ⟨c, cs, hcs, Or.inl hc⟩
  | float x =>
    rw [numberChars, Binary64.render]
    obtain ⟨spelled⟩ := spells_shortest x closes_nil
    obtain ⟨c, cs, hcs⟩ := List.exists_cons_of_ne_nil spelled.leads.ne_nil
    have htext := spelled.text
    rw [List.append_nil, hcs, List.cons_append] at htext
    split
    · exact ⟨_, _, rfl, Or.inr rfl⟩
    · exact ⟨c, _, htext, Or.inl (spelled.leads.isDigit c (by rw [hcs]; exact List.mem_cons_self))⟩

/-- A number reads back. -/
theorem number?_numberChars (n : Number) {rest : List Char} (hrest : Closes rest) :
    number? (numberChars n ++ rest) = some (n, rest) := by
  cases n with
  | whole i => exact number?_whole i hrest
  | float x => exact number?_float x hrest

end Read

end Json

end PlanHistory
