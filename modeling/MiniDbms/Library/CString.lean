import Mathlib

/-!
# C strings and the parts of the C library used on them

A C string is the list of its bytes before the terminating NUL. Character classification is that
of the "C" locale. `CBuf n` is the content of a `char[n + 1]` buffer.
-/

namespace MiniDbms

abbrev Byte := UInt8

abbrev CString := List Byte

/-- The byte of an ASCII character. -/
def chr (c : Char) : Byte := c.toNat.toUInt8

/-- The bytes of an ASCII literal. -/
def bytes (s : String) : CString := s.toList.map chr

/-- A property of all bytes is checked on the 256 values. -/
lemma forall_byte {p : Byte → Prop} (h : ∀ n : Fin 256, p (UInt8.ofNat n)) (b : Byte) : p b := by
  simpa using h ⟨b.toNat, b.toNat_lt⟩

/-- A property of all bytes of a text is checked byte by byte. -/
lemma forall_mem_of_all {p : Byte → Prop} [DecidablePred p] {s : CString}
    (h : s.all (fun b => decide (p b)) = true) : ∀ b ∈ s, p b := by
  intro b hb
  exact of_decide_eq_true (List.all_eq_true.mp h b hb)

/-! ### `ctype.h` -/

def isspace (b : Byte) : Bool := b == 32 || (9 ≤ b && b ≤ 13)

def isdigit (b : Byte) : Bool := 48 ≤ b && b ≤ 57

def isupper (b : Byte) : Bool := 65 ≤ b && b ≤ 90

def islower (b : Byte) : Bool := 97 ≤ b && b ≤ 122

def isalpha (b : Byte) : Bool := isupper b || islower b

def isalnum (b : Byte) : Bool := isalpha b || isdigit b

def toupper (b : Byte) : Byte := if islower b then b - 32 else b

/-! ### `string.h` and `stdlib.h` -/

/-- `strcmp`: the sign of the first difference, bytes being compared as `unsigned char`. -/
def strcmp : CString → CString → Int
  | [], []           => 0
  | [], _ :: _       => -1
  | _ :: _, []       => 1
  | a :: as, b :: bs => if a < b then -1 else if b < a then 1 else strcmp as bs

/-- The value of the longest prefix of decimal digits. -/
def digitsValue (acc : Nat) : CString → Nat
  | []      => acc
  | b :: bs => if isdigit b then digitsValue (acc * 10 + (b.toNat - 48)) bs else acc

/-- Saturation to `[LLONG_MIN, LLONG_MAX]`. -/
def saturateLongLong (n : Int) : Int := max (-(2 ^ 63)) (min (2 ^ 63 - 1) n)

/-- `strtoll(text, NULL, 10)` -/
def strtoll (text : CString) : Int :=
  match text.dropWhile isspace with
  | []      => 0
  | b :: bs =>
    if b = chr '-' then saturateLongLong (-(digitsValue 0 bs : Int))
    else if b = chr '+' then saturateLongLong (digitsValue 0 bs)
    else saturateLongLong (digitsValue 0 (b :: bs))

/-- Decimal digits of a natural number, most significant first. -/
def natDigits (n : Nat) : CString := (Nat.toDigits 10 n).map chr

/-- The text `printf` writes for `%d` and `%lld`. -/
def printInt (n : Int) : CString :=
  if n < 0 then chr '-' :: natDigits n.natAbs else natDigits n.natAbs

/-- `INT_MAX` -/
def intMax : Int := 2147483647

/-- The value of an `int`. -/
def toInt (n : Int) : Int := n.bmod (2 ^ 32)

/-- Arithmetic of `int`, which wraps around on the platforms the program runs on. -/
def wrapInt (n : Int) : Int := n.bmod (2 ^ 32)

/-- The value of a `size_t`. -/
def toSizeT (n : Int) : Nat := (n % 2 ^ 64).toNat

/-- The largest size `realloc` can serve, `PTRDIFF_MAX`. -/
def maxObjectSize : Int := 2 ^ 63 - 1

@[simp]
lemma strcmp_self (s : CString) : strcmp s s = 0 := by
  induction s with
  | nil => rfl
  | cons b s ih => simp [strcmp, ih]

@[simp]
lemma strcmp_eq_zero_iff {s t : CString} : strcmp s t = 0 ↔ s = t := by
  induction s generalizing t with
  | nil => cases t <;> simp [strcmp]
  | cons a s ih =>
    cases t with
    | nil => simp [strcmp]
    | cons b t =>
      rw [strcmp]
      split_ifs with h1 h2
      · have hne : a ≠ b := UInt8.ne_of_lt h1
        simp [hne]
      · have hne : a ≠ b := (UInt8.ne_of_lt h2).symm
        simp [hne]
      · have hab : a = b := by grind
        simp [hab, ih]

/-! ### Decimal text -/

lemma toNat_chr {c : Char} (h : c.toNat < 128) : (chr c).toNat = c.toNat := by
  simp only [chr, Nat.toUInt8, UInt8.toNat_ofNat']
  omega

lemma chr_injective {c d : Char} (hc : c.toNat < 128) (hd : d.toNat < 128) (h : chr c = chr d) :
    c = d := by
  have hnat := congrArg UInt8.toNat h
  rw [toNat_chr hc, toNat_chr hd] at hnat
  exact Char.toNat_inj.mp hnat

lemma chr_digit {c : Char} (h : c.isDigit = true) :
    isdigit (chr c) = true ∧ (chr c).toNat = c.toNat := by
  have hrange : 48 ≤ c.toNat ∧ c.toNat ≤ 57 := by simpa [Char.isDigit_iff_toNat] using h
  have hnat : (chr c).toNat = c.toNat := toNat_chr (by omega)
  refine ⟨?_, hnat⟩
  simp only [isdigit, Bool.and_eq_true, decide_eq_true_eq, UInt8.le_iff_toNat_le, hnat]
  exact hrange

lemma isdigit_of_mem_natDigits {n : Nat} : ∀ b ∈ natDigits n, isdigit b = true := by
  intro b hb
  obtain ⟨c, hc, rfl⟩ := List.mem_map.mp hb
  exact (chr_digit (Nat.isDigit_of_mem_toDigits (by decide) (by decide) hc)).1

lemma natDigits_ne_nil (n : Nat) : natDigits n ≠ [] := by
  simp [natDigits]

lemma length_natDigits_le {n k : Nat} (hk : 0 < k) (h : n < 10 ^ k) :
    (natDigits n).length ≤ k := by
  rw [natDigits, List.length_map]
  exact (Nat.length_toDigits_le_iff (by decide) hk).mpr h

lemma digitsValue_natDigits (n : Nat) : digitsValue 0 (natDigits n) = n := by
  have hvalue : ∀ (cs : List Char) (acc : Nat), (∀ c ∈ cs, c.isDigit = true) →
      digitsValue acc (cs.map chr) = Nat.ofDigitChars 10 cs acc := by
    intro cs
    induction cs with
    | nil => simp [digitsValue]
    | cons c cs ih =>
      intro acc hcs
      obtain ⟨hdigit, hnat⟩ := chr_digit (hcs c (by simp))
      rw [List.map_cons, digitsValue, if_pos hdigit, hnat, ih _ fun d hd => hcs d (by simp [hd]),
        Nat.ofDigitChars_cons, Nat.mul_comm]
      rfl
  rw [natDigits, hvalue _ 0 fun c hc => Nat.isDigit_of_mem_toDigits (by decide) (by decide) hc,
    Nat.ofDigitChars_ten_toDigits]

lemma isdigit_facts {b : Byte} : isdigit b = true →
    isspace b = false ∧ b ≠ chr '-' ∧ b ≠ chr '+' ∧ b ≠ 0 ∧ b ≠ chr '\n' ∧ b ≠ chr '\r' := by
  revert b
  apply forall_byte
  decide +kernel

/-- `strtoll` reads back what `printf` writes. -/
lemma strtoll_printInt {n : Int} (h0 : 0 ≤ n) (hmax : n ≤ 2 ^ 63 - 1) :
    strtoll (printInt n) = n := by
  obtain ⟨b, bs, hbs⟩ := List.exists_cons_of_ne_nil (natDigits_ne_nil n.natAbs)
  have hb := isdigit_facts (isdigit_of_mem_natDigits b (hbs ▸ List.mem_cons_self))
  have hvalue := digitsValue_natDigits n.natAbs
  rw [printInt, if_neg (by omega), hbs, strtoll, List.dropWhile_cons_of_neg (by simp [hb.1])]
  simp only [hb.2.1, hb.2.2.1, if_false, ← hbs, hvalue, saturateLongLong]
  omega

/-! ### Buffers -/

/-- The bytes that a reader of a NUL-terminated buffer sees. -/
def cView (s : CString) : CString := s.takeWhile (fun b => b != 0)

lemma cView_eq_self {s : CString} (h : 0 ∉ s) : cView s = s := by
  rw [cView, List.takeWhile_eq_self_iff]
  intro b hb
  have hne : b ≠ 0 := fun h0 => h (h0 ▸ hb)
  simpa using hne

lemma cView_subset {s : CString} {b : Byte} (h : b ∈ cView s) : b ∈ s :=
  (List.takeWhile_prefix _).subset h

/-- Nothing is seen behind a NUL. -/
lemma cView_append_of_mem {s : CString} (h : 0 ∈ s) (t : CString) : cView (s ++ t) = cView s := by
  rw [cView, List.takeWhile_append, if_neg]
  · rfl
  · intro hlen
    have hall := (List.takeWhile_prefix (fun b : Byte => b != 0)).eq_of_length hlen
    exact absurd (List.takeWhile_eq_self_iff.mp hall 0 h) (by simp)

lemma nul_notMem_cView (s : CString) : 0 ∉ cView s := by
  intro h
  simpa using List.mem_takeWhile_imp h

/-- The content of a `char[n + 1]` buffer: at most `n` bytes, none of them NUL. -/
@[ext]
structure CBuf (n : Nat) where
  val : CString
  property : val.length ≤ n ∧ 0 ∉ val
  deriving DecidableEq, Repr

namespace CBuf

variable {n : Nat}

def empty : CBuf n := ⟨[], by simp⟩

instance : Inhabited (CBuf n) := ⟨empty⟩

/-- `snprintf(dest, n + 1, "%s", src)`: as much of `src` as fits. -/
def truncate (n : Nat) (src : CString) : CBuf n :=
  ⟨(cView src).take n, List.length_take_le n _,
    fun h => nul_notMem_cView src (List.mem_of_mem_take h)⟩

lemma truncate_eq {s : CString} (hlen : s.length ≤ n) (hnul : 0 ∉ s) :
    truncate n s = ⟨s, hlen, hnul⟩ := by
  apply CBuf.ext
  simp only [truncate, cView_eq_self hnul]
  exact List.take_of_length_le hlen

@[simp]
lemma truncate_val (b : CBuf n) : truncate n b.val = b :=
  truncate_eq b.2.1 b.2.2

end CBuf

end MiniDbms
