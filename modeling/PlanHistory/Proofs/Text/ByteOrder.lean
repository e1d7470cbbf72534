/-
Texts ascend as their bytes do.

Texts are compared character by character.  In UTF-8 a character comes before another if its
bytes do, so that the same order is found byte by byte: **`Text.lt_iff_bytes_lt`**.
-/
import Mathlib.Data.String.Basic
import Mathlib.Tactic.Common
import PlanHistory.Proofs.Document

namespace PlanHistory

namespace Text

/-- The bytes of a text in UTF-8. -/
def bytes (text : String) : List UInt8 :=
  text.toUTF8.toList

theorem bytes_eq (text : String) : bytes text = text.toList.flatMap String.utf8EncodeChar := by
  have hencode : text.toUTF8 = text.toList.utf8Encode := String.utf8Encode_toList.symm
  rw [bytes, ByteArray.toList, toList_loop, List.reverse_nil, List.nil_append, List.drop_zero,
    hencode]
  simp [List.utf8Encode]

theorem byte_lt_iff {m n : Nat} (hm : m < 256) (hn : n < 256) :
    UInt8.ofNat m < UInt8.ofNat n ↔ m < n := by
  rw [UInt8.lt_iff_toNat_lt, UInt8.toNat_ofNat_of_lt' hm, UInt8.toNat_ofNat_of_lt' hn]

theorem byte_eq_iff {m n : Nat} (hm : m < 256) (hn : n < 256) :
    UInt8.ofNat m = UInt8.ofNat n ↔ m = n := by
  rw [← UInt8.toNat_inj, UInt8.toNat_ofNat_of_lt' hm, UInt8.toNat_ofNat_of_lt' hn]

/-- The smaller of two numbers is so in what stands before its last six bits, or in these. -/
theorem sixes_lt {m n : Nat} (h : m < n) : m / 64 < n / 64 ∨ m / 64 = n / 64 ∧ m % 64 < n % 64 := by
  omega

/-- The bytes of a character that comes before another come before its bytes, whatever
follows them. -/
theorem utf8EncodeChar_lt {c d : Char} (h : c < d) (rest rest' : List UInt8) :
    String.utf8EncodeChar c ++ rest < String.utf8EncodeChar d ++ rest' := by
  have hlt : c.val.toNat < d.val.toNat := h
  have hlast : d.val.toNat < 0x110000 := by
    rcases d.valid with hlow | ⟨-, hhigh⟩
    · exact hlow.trans (by decide)
    · exact hhigh
  rw [String.utf8EncodeChar, String.utf8EncodeChar]
  generalize c.val.toNat = m at hlt
  generalize d.val.toNat = n at hlt hlast
  -- The first byte tells how many there are.  The bytes that follow hold six bits each, and the
  -- first of these digits that differs decides.
  have hones := sixes_lt hlt
  have hsixes : m / 64 < n / 64 →
      m / 4096 < n / 4096 ∨ m / 4096 = n / 4096 ∧ m / 64 % 64 < n / 64 % 64 := by
    intro h
    have hdigits := sixes_lt h
    rwa [Nat.div_div_eq_div_mul, Nat.div_div_eq_div_mul] at hdigits
  have htwelves : m / 4096 < n / 4096 →
      m / 262144 < n / 262144 ∨ m / 262144 = n / 262144 ∧ m / 4096 % 64 < n / 4096 % 64 := by
    intro h
    have hdigits := sixes_lt h
    rwa [Nat.div_div_eq_div_mul, Nat.div_div_eq_div_mul] at hdigits
  have hfirst (k : Nat) (hk : k < 0x110000) : k / 262144 % 8 = k / 262144 := by omega
  have hm := hfirst m (hlt.trans hlast)
  have hn := hfirst n hlast
  split_ifs <;>
    simp (disch := omega) only [List.cons_append, List.nil_append, List.cons_lt_cons_iff,
      byte_lt_iff, byte_eq_iff] <;>
    omega

theorem flatMap_lt {cs ds : List Char} (h : cs < ds) :
    cs.flatMap String.utf8EncodeChar < ds.flatMap String.utf8EncodeChar := by
  induction cs generalizing ds with
  | nil =>
    cases ds with
    | nil => exact absurd h (List.lt_irrefl _)
    | cons d ds =>
      obtain ⟨first, more, hbytes⟩ :=
        List.exists_cons_of_ne_nil (@String.utf8EncodeChar_ne_nil d)
      rw [List.flatMap_cons, hbytes]
      exact List.nil_lt_cons _ _
  | cons c cs ih =>
    cases ds with
    | nil => exact absurd h (by simp)
    | cons d ds =>
      rw [List.flatMap_cons, List.flatMap_cons]
      rcases List.cons_lt_cons_iff.mp h with hfirst | ⟨rfl, hrest⟩
      · exact utf8EncodeChar_lt hfirst _ _
      · exact List.append_left_lt (ih hrest)

/-- **Texts ascend as their bytes do.** -/
theorem lt_iff_bytes_lt {a b : String} : a < b ↔ bytes a < bytes b := by
  have mono {a b : String} (h : a < b) : bytes a < bytes b := by
    rw [bytes_eq, bytes_eq]
    exact flatMap_lt (String.lt_iff.mp h)
  refine ⟨mono, fun h => ?_⟩
  rcases lt_trichotomy a b with hlt | rfl | hgt
  · exact hlt
  · exact absurd h (List.lt_irrefl _)
  · exact absurd (List.lt_trans h (mono hgt)) (List.lt_irrefl _)

end Text

end PlanHistory
