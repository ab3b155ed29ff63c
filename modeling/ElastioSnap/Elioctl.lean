import Mathlib.Data.List.TakeWhile
import Mathlib.Data.Nat.Digits.Defs

namespace ElastioSnap.Elioctl

def einval : Nat := 22

def erange : Nat := 34

/-- `LONG_MAX`, and as well `LLONG_MAX`. -/
def longMax : Nat := 2 ^ 63 - 1

def isdigit (c : UInt8) : Bool := decide (48 ≤ c ∧ c ≤ 57)

def isspace (c : UInt8) : Bool := decide (c = 32 ∨ 9 ≤ c ∧ c ≤ 13)

/-- What a character stands for in a number. -/
def digitValue (c : UInt8) : Option Nat :=
  if 48 ≤ c ∧ c ≤ 57 then some (c.toNat - 48)
  else if 97 ≤ c ∧ c ≤ 122 then some (c.toNat - 87)
  else if 65 ≤ c ∧ c ≤ 90 then some (c.toNat - 55)
  else none

/-- The number read so far, after the digits in front of the string. -/
def accumulate (base : Nat) : Nat → List UInt8 → Nat
  | acc, [] => acc
  | acc, c :: s =>
      match digitValue c with
      | some d => if d < base then accumulate base (acc * base + d) s else acc
      | none => acc

/-- The base of a number that says itself which it is, and the string from its first digit on. -/
def detectBase (s : List UInt8) : Nat × List UInt8 :=
  if s.head? = some 48 then
    if (s[1]? = some 120 ∨ s[1]? = some 88) ∧ ((s[2]?.bind digitValue).any fun d => d < 16) = true then (16, s.drop 2)
    else (8, s)
  else (10, s)

/-- `strtol` with a null end and the base 0, and as well `strtoll`: both types have 64 bits. -/
def strtol (s : List UInt8) (errno : Nat) : Int × Nat :=
  let s := s.dropWhile isspace
  let neg := decide (s.head? = some 45)
  let s := if s.head? = some 45 ∨ s.head? = some 43 then s.tail else s
  let n : Int := accumulate (detectBase s).1 0 (detectBase s).2
  let v := if neg then -n else n
  if (longMax : Int) < v then (longMax, erange)
  else if v < -(2 ^ 63) then (-(2 ^ 63), erange)
  else (v, errno)

/-- The loop over the characters of a string, which goes up to the null at its end. -/
def digitScan : List UInt8 → Bool
  | [] => false
  | c :: s => isdigit c && (s.isEmpty || digitScan s)

structure Parsed where
  ret : Int
  out : Nat
  errno : Nat
  deriving DecidableEq

/-- A number that is stored in so many bits. -/
def parse (width : Nat) (str : List UInt8) (errno : Nat) : Parsed :=
  if digitScan str then
    let tmp := strtol str errno
    if tmp.2 ≠ 0 then ⟨-1, 0, tmp.2⟩
    else if tmp.1 < 0 ∨ tmp.1 = longMax then ⟨-1, 0, erange⟩
    else ⟨0, (tmp.1 % 2 ^ width).toNat, tmp.2⟩
  else ⟨-1, 0, einval⟩

def parseUl (str : List UInt8) (errno : Nat) : Parsed := parse 64 str errno

def parseUi (str : List UInt8) (errno : Nat) : Parsed := parse 32 str errno

/-- The minor that is passed on to `elastio_snap_destroy`. -/
def handleDestroy (argv : List (List UInt8)) (errno : Nat) : Option Nat :=
  match argv with
  | [_, minor] => if (parseUi minor errno).ret ≠ 0 then none else some (parseUi minor errno).out
  | _ => none

def digit (c : UInt8) : Nat := c.toNat - 48

/-- What a string of decimal digits denotes. -/
def value (s : List UInt8) : Nat := Nat.ofDigits 10 (s.reverse.map digit)

structure Denotes (s : List UInt8) (v : Nat) : Prop where
  nonempty : s ≠ []
  digits : ∀ c ∈ s, isdigit c = true
  value : v = value s

/-- A result is the number typed, where that is below the limit, and else an error. -/
structure Means (limit : Nat) (s : List UInt8) (p : Parsed) : Prop where
  ok : ∀ v, p.ret = 0 ∧ p.out = v ↔ Denotes s v ∧ v < limit
  error : p.ret ≠ 0 → p.out = 0

/-- What the octal digits in front denote in base eight. -/
def octalFront (s : List UInt8) : Nat := Nat.ofDigits 8 ((s.takeWhile fun c => decide (c < 56)).reverse.map digit)

/-- Behind the zeros in front there is nothing but one octal digit at most. -/
def Short : List UInt8 → Prop
  | [] => True
  | c :: s => if c = 48 then Short s else c < 56 ∧ s = []

/-- A string is no decimal number at all, or one in front of which there is no zero and which is in the limit or too
large for a word, or one whose zeros in front do not matter. An error of before is taken for one of the conversion. -/
def Plain (limit : Nat) (s : List UInt8) (errno : Nat) : Prop :=
  (¬ ∃ v, Denotes s v) ∨ (errno ≠ 0 ∧ limit ≤ value s) ∨ (errno = 0 ∧
    if s.head? = some 48 then Short s ∨ longMax ≤ octalFront s else value s < limit ∨ longMax ≤ value s)

variable {s : List UInt8} {c : UInt8} {acc acc' errno width limit v base n : Nat}

theorem isdigit_bounds (h : isdigit c = true) : 48 ≤ c.toNat ∧ c.toNat ≤ 57 := of_decide_eq_true h

theorem digitValue_digit (h : isdigit c = true) : digitValue c = some (digit c) := if_pos (of_decide_eq_true h)

theorem digitScan_iff : digitScan s = true ↔ s ≠ [] ∧ ∀ c ∈ s, isdigit c = true := by
  induction s with
  | nil => simp [digitScan]
  | cons c s ih =>
      rw [digitScan, Bool.and_eq_true, Bool.or_eq_true, List.forall_mem_cons, ih, List.isEmpty_iff]
      constructor
      · rintro ⟨hc, hs⟩
        refine ⟨List.cons_ne_nil c s, hc, ?_⟩
        rcases hs with rfl | ⟨-, hs⟩
        · exact List.forall_mem_nil _
        · exact hs
      · rintro ⟨-, hc, hs⟩
        exact ⟨hc, (Decidable.em (s = [])).imp_right fun hne => ⟨hne, hs⟩⟩

theorem accumulate_digits (hd : ∀ c ∈ s, isdigit c = true ∧ digit c < base) :
    accumulate base acc s = acc * base ^ s.length + Nat.ofDigits base (s.reverse.map digit) := by
  induction s generalizing acc with
  | nil => simp [accumulate]
  | cons c s ih =>
      obtain ⟨⟨hc, hlt⟩, hs⟩ := List.forall_mem_cons.mp hd
      rw [accumulate, digitValue_digit hc]
      dsimp only
      rw [if_pos hlt, ih hs, List.reverse_cons, List.map_append, List.map_singleton, Nat.ofDigits_append,
        Nat.ofDigits_singleton, List.length_map, List.length_reverse, List.length_cons]
      ring

theorem accumulate_value (hd : ∀ c ∈ s, isdigit c = true) : accumulate 10 0 s = value s := by
  rw [accumulate_digits fun c hc => ⟨hd c hc, ?_⟩, Nat.zero_mul, Nat.zero_add, value]
  have hb := isdigit_bounds (hd c hc)
  rw [digit]
  omega

/-- Digits that are not octal end an octal number. -/
theorem accumulate_takeWhile (hd : ∀ c ∈ s, isdigit c = true) :
    accumulate 8 acc s = accumulate 8 acc (s.takeWhile fun c => decide (c < 56)) := by
  induction s generalizing acc with
  | nil => rfl
  | cons c s ih =>
      obtain ⟨hc, hs⟩ := List.forall_mem_cons.mp hd
      have hb := isdigit_bounds hc
      by_cases hlt : c < 56
      · have h8 : digit c < 8 := by
          have hn : c.toNat < 56 := hlt
          rw [digit]
          omega
        rw [List.takeWhile_cons, if_pos (decide_eq_true hlt), accumulate, accumulate, digitValue_digit hc]
        dsimp only
        rw [if_pos h8, if_pos h8, ih hs]
      · have h8 : ¬ digit c < 8 := by
          have hn : ¬ c.toNat < 56 := hlt
          rw [digit]
          omega
        rw [List.takeWhile_cons, if_neg (by simpa using hlt), accumulate, accumulate, digitValue_digit hc]
        dsimp only
        rw [if_neg h8]

theorem accumulate_octal (hd : ∀ c ∈ s, isdigit c = true) : accumulate 8 0 s = octalFront s := by
  have hfront : ∀ c ∈ s.takeWhile (fun c => decide (c < 56)), isdigit c = true ∧ digit c < 8 := by
    intro c hc
    have hdigit := hd c ((List.takeWhile_prefix _).subset hc)
    have hlt : c < 56 := of_decide_eq_true (List.mem_takeWhile_imp (p := fun c => decide (c < 56)) hc)
    have hn : c.toNat < 56 := hlt
    have hb := isdigit_bounds hdigit
    refine ⟨hdigit, ?_⟩
    rw [digit]
    omega
  rw [accumulate_takeWhile hd, accumulate_digits hfront, Nat.zero_mul, Nat.zero_add, octalFront]

/-- The number that is converted from a string of digits. -/
def converted (s : List UInt8) : Nat := if s.head? = some 48 then octalFront s else value s

theorem strtol_digits (hne : s ≠ []) (hd : ∀ c ∈ s, isdigit c = true) :
    strtol s errno = if longMax < converted s then ((longMax : Int), erange) else ((converted s : Int), errno) := by
  obtain ⟨c, t, rfl⟩ := List.exists_cons_of_ne_nil hne
  have hb := isdigit_bounds (hd c List.mem_cons_self)
  have hspace : isspace c = false := by
    rw [isspace, decide_eq_false_iff_not]
    rintro (rfl | ⟨-, h⟩)
    · exact absurd hb.1 (by decide)
    · have h : c.toNat ≤ 13 := h
      omega
  have hsign : (c :: t).head? ≠ some 45 ∧ (c :: t).head? ≠ some 43 := by
    constructor
    · rintro h
      cases h
      exact absurd hb.1 (by decide)
    · rintro h
      cases h
      exact absurd hb.1 (by decide)
  have hread : accumulate (detectBase (c :: t)).1 0 (detectBase (c :: t)).2 = converted (c :: t) := by
    rw [detectBase, converted]
    split
    · have hx : ¬ ((c :: t)[1]? = some 120 ∨ (c :: t)[1]? = some 88) := by
        rintro (h | h)
        · exact absurd (isdigit_bounds (hd _ (List.mem_of_getElem? h))).2 (by decide)
        · exact absurd (isdigit_bounds (hd _ (List.mem_of_getElem? h))).2 (by decide)
      rw [if_neg fun h => hx h.1, accumulate_octal hd]
    · exact accumulate_value hd
  rw [strtol]
  simp only [List.dropWhile_cons, hspace, Bool.false_eq_true, if_false, hsign.1, hsign.2, or_self, decide_false, hread]
  have hlow : ¬ ((converted (c :: t) : Int) < -(2 ^ 63)) := by omega
  have hlt : (longMax : Int) < (converted (c :: t) : Int) ↔ longMax < converted (c :: t) := Int.ofNat_lt
  simp only [hlow, if_false, hlt]

/-- A string of digits is converted where there is no error, of before or because the number is too large. -/
theorem parse_digits (hne : s ≠ []) (hd : ∀ c ∈ s, isdigit c = true) :
    (errno = 0 ∧ converted s < longMax ∧ parse width s errno = ⟨0, converted s % 2 ^ width, 0⟩) ∨
    ((errno ≠ 0 ∨ longMax ≤ converted s) ∧ (parse width s errno).ret ≠ 0 ∧ (parse width s errno).out = 0) := by
  have hscan : digitScan s = true := digitScan_iff.mpr ⟨hne, hd⟩
  rw [parse, if_pos hscan, strtol_digits hne hd]
  by_cases hover : longMax < converted s
  · right
    simp only [hover, if_true]
    exact ⟨.inr hover.le, by simp [erange]⟩
  · simp only [hover, if_false]
    by_cases herr : errno = 0
    · subst herr
      by_cases hmax : converted s = longMax
      · right
        simp [hmax]
      · left
        have hneg : ¬ ((converted s : Int) < 0 ∨ (converted s : Int) = longMax) := by
          rintro (h | h)
          · exact absurd h (Int.not_lt.mpr (Int.natCast_nonneg _))
          · exact hmax (Int.ofNat_inj.mp h)
        refine ⟨rfl, by omega, ?_⟩
        simp only [ne_eq, not_true_eq_false, if_false, hneg]
        rfl
    · right
      simp [herr]

theorem le_accumulate (hd : ∀ c ∈ s, isdigit c = true) : acc ≤ accumulate 10 acc s := by
  induction s generalizing acc with
  | nil => exact le_rfl
  | cons c s ih =>
      obtain ⟨hc, hs⟩ := List.forall_mem_cons.mp hd
      have hb := isdigit_bounds hc
      have hlt : digit c < 10 := by
        rw [digit]
        omega
      rw [accumulate, digitValue_digit hc]
      dsimp only
      rw [if_pos hlt]
      exact le_trans (by omega) (ih hs)

/-- Digits are worth less in base eight, and those from an `8` or `9` on nothing. -/
theorem accumulate_lt (hd : ∀ c ∈ s, isdigit c = true) (hlt : acc < acc' ∨ acc = acc' ∧ 0 < acc ∧ s ≠ []) :
    accumulate 8 acc s < accumulate 10 acc' s := by
  induction s generalizing acc acc' with
  | nil =>
      rcases hlt with hlt | ⟨-, -, hne⟩
      · exact hlt
      · exact absurd rfl hne
  | cons c s ih =>
      obtain ⟨hc, hs⟩ := List.forall_mem_cons.mp hd
      have hb := isdigit_bounds hc
      have hten : digit c < 10 := by
        rw [digit]
        omega
      have hmore : acc * 8 + digit c < acc' * 10 + digit c ∧ acc < acc' * 10 + digit c := by omega
      rw [accumulate, accumulate, digitValue_digit hc]
      dsimp only
      rw [if_pos hten]
      by_cases h8 : digit c < 8
      · rw [if_pos h8]
        exact ih hs (.inl hmore.1)
      · rw [if_neg h8]
        exact lt_of_lt_of_le hmore.2 (le_accumulate hs)

/-- In base eight a string of digits denotes less, but for one octal digit behind zeros. -/
theorem accumulate_octal_decimal (hd : ∀ c ∈ s, isdigit c = true) :
    Short s ∧ accumulate 8 0 s = accumulate 10 0 s ∧ accumulate 10 0 s < 8 ∨
    ¬ Short s ∧ accumulate 8 0 s < accumulate 10 0 s := by
  induction s with
  | nil => exact .inl ⟨trivial, rfl, by decide⟩
  | cons c s ih =>
      obtain ⟨hc, hs⟩ := List.forall_mem_cons.mp hd
      have hb := isdigit_bounds hc
      have hten : digit c < 10 := by
        rw [digit]
        omega
      rw [accumulate, accumulate, digitValue_digit hc, Short]
      dsimp only
      rw [if_pos hten, Nat.zero_mul, Nat.zero_add]
      by_cases hzero : c = 48
      · have h0 : digit c = 0 := by
          rw [hzero]
          rfl
        rw [if_pos hzero, h0, if_pos (by decide : 0 < 8)]
        exact ih hs
      · have hpos : 0 < digit c := by
          have hne : c.toNat ≠ 48 := fun h => hzero (UInt8.toNat_inj.mp h)
          rw [digit]
          omega
        have h8 : digit c < 8 ↔ c < 56 := by
          rw [UInt8.lt_iff_toNat_lt, digit]
          have : (56 : UInt8).toNat = 56 := rfl
          omega
        rw [if_neg hzero, ← h8]
        by_cases hlt : digit c < 8
        · rw [if_pos hlt]
          by_cases hnil : s = []
          · rw [hnil]
            exact .inl ⟨⟨hlt, rfl⟩, rfl, hlt⟩
          · exact .inr ⟨fun h => hnil h.2, accumulate_lt hs (.inr ⟨rfl, hpos, hnil⟩)⟩
        · rw [if_neg hlt]
          exact .inr ⟨fun h => hlt h.1, lt_of_lt_of_le hpos (le_accumulate hs)⟩

theorem octalFront_value (hd : ∀ c ∈ s, isdigit c = true) :
    Short s ∧ octalFront s = value s ∧ value s < 8 ∨ ¬ Short s ∧ octalFront s < value s := by
  rw [← accumulate_octal hd, ← accumulate_value hd]
  exact accumulate_octal_decimal hd

theorem denotes_iff (hne : s ≠ []) (hd : ∀ c ∈ s, isdigit c = true) : Denotes s v ↔ v = value s :=
  ⟨fun h => h.value, fun h => ⟨hne, hd, h⟩⟩

theorem means_ok_iff (hne : s ≠ []) (hd : ∀ c ∈ s, isdigit c = true) :
    Means limit s ⟨0, n, errno⟩ ↔ n = value s ∧ value s < limit := by
  constructor
  · rintro ⟨hok, -⟩
    have h := (hok n).mp ⟨rfl, rfl⟩
    have hv := (denotes_iff hne hd).mp h.1
    exact ⟨hv, hv ▸ h.2⟩
  · rintro ⟨rfl, hlt⟩
    refine ⟨fun v => ?_, fun h => absurd rfl h⟩
    rw [denotes_iff hne hd]
    constructor
    · rintro ⟨-, rfl⟩
      exact ⟨rfl, hlt⟩
    · rintro ⟨rfl, -⟩
      exact ⟨rfl, rfl⟩

theorem means_error_iff {p : Parsed} (hret : p.ret ≠ 0) (hout : p.out = 0) :
    Means limit s p ↔ ∀ v, Denotes s v → limit ≤ v := by
  constructor
  · rintro ⟨hok, -⟩ v hv
    exact Nat.le_of_not_lt fun hlt => hret ((hok v).mpr ⟨hv, hlt⟩).1
  · intro h
    exact ⟨fun v => ⟨fun hv => absurd hv.1 hret, fun hv => absurd hv.2 (Nat.not_lt.mpr (h v hv.1))⟩, fun _ => hout⟩

/-- A string that is converted to what it denotes, if to anything. -/
theorem means_converted (hsmall : 8 ≤ limit) (hlimit : limit ≤ longMax) (hwidth : limit ≤ 2 ^ width) (hne : s ≠ [])
    (hd : ∀ c ∈ s, isdigit c = true) :
    Means limit s (parse width s 0) ↔
      if s.head? = some 48 then Short s ∨ longMax ≤ octalFront s else value s < limit ∨ longMax ≤ value s := by
  have hoct := octalFront_value hd
  rcases parse_digits hne hd with ⟨-, hmax, heq⟩ | ⟨hmax, hret, hout⟩
  · rw [heq, means_ok_iff hne hd]
    rw [converted] at hmax ⊢
    split
    · rename_i hhead
      rw [if_pos hhead] at hmax
      constructor
      · rintro ⟨hmod, -⟩
        have hle := Nat.mod_le (octalFront s) (2 ^ width)
        rcases hoct with ⟨h, -⟩ | ⟨-, h⟩
        · exact .inl h
        · omega
      · rintro (h | h)
        · obtain ⟨-, h, hlt⟩ := hoct.resolve_right fun hn => hn.1 h
          rw [h]
          exact ⟨Nat.mod_eq_of_lt (by omega), by omega⟩
        · omega
    · rename_i hhead
      rw [if_neg hhead] at hmax
      constructor
      · rintro ⟨-, hlt⟩
        exact .inl hlt
      · rintro (hlt | h)
        · exact ⟨Nat.mod_eq_of_lt (lt_of_lt_of_le hlt hwidth), hlt⟩
        · omega
  · have hmax : longMax ≤ converted s := hmax.resolve_left (absurd rfl)
    rw [converted] at hmax
    rw [means_error_iff hret hout]
    split
    · rename_i hhead
      rw [if_pos hhead] at hmax
      refine iff_of_true (fun v hv => ?_) (.inr hmax)
      rw [hv.value]
      omega
    · rename_i hhead
      rw [if_neg hhead] at hmax
      refine iff_of_true (fun v hv => ?_) (.inr hmax)
      rw [hv.value]
      omega

theorem means_parse_iff (hsmall : 8 ≤ limit) (hlimit : limit ≤ longMax) (hwidth : limit ≤ 2 ^ width) :
    Means limit s (parse width s errno) ↔ Plain limit s errno := by
  by_cases hscan : digitScan s = true
  · obtain ⟨hne, hd⟩ := digitScan_iff.mp hscan
    have hsome : ∃ v, Denotes s v := ⟨value s, hne, hd, rfl⟩
    by_cases herr : errno = 0
    · rw [herr, means_converted hsmall hlimit hwidth hne hd]
      constructor
      · intro h
        exact .inr (.inr ⟨rfl, h⟩)
      · rintro (h | ⟨h, -⟩ | ⟨-, h⟩)
        · exact absurd hsome h
        · exact absurd rfl h
        · exact h
    · rcases parse_digits hne hd with ⟨h, -⟩ | ⟨-, hret, hout⟩
      · exact absurd h herr
      · rw [means_error_iff hret hout]
        constructor
        · intro h
          exact .inr (.inl ⟨herr, h (value s) ⟨hne, hd, rfl⟩⟩)
        · rintro (h | ⟨-, h⟩ | ⟨h, -⟩) v hv
          · exact absurd hsome h
          · exact hv.value ▸ h
          · exact absurd h herr
  · have hnone : ¬ ∃ v, Denotes s v := by
      rintro ⟨v, hv⟩
      exact hscan (digitScan_iff.mpr ⟨hv.nonempty, hv.digits⟩)
    rw [parse, if_neg hscan, means_error_iff (by decide) rfl]
    exact iff_of_true (fun v hv => absurd ⟨v, hv⟩ hnone) (.inl hnone)

/-- A number is taken for what it says but for zeros in front, which make it octal, and for a minor of more than 32
bits, which is cut. -/
theorem argument_means_iff (s : List UInt8) (errno : Nat) :
    (Means (2 ^ 32) s (parseUi s errno) ↔ Plain (2 ^ 32) s errno) ∧
    (Means longMax s (parseUl s errno) ↔ Plain longMax s errno) :=
  ⟨means_parse_iff (by decide) (by decide) (by decide), means_parse_iff (by decide) (by decide) (by decide)⟩

/-- `elioctl destroy 010` destroys the snapshot 8, and `elioctl destroy 4294967296` the snapshot 0. -/
theorem destroy_other_minor :
    handleDestroy [[100], [48, 49, 48]] 0 = some 8 ∧ value [48, 49, 48] = 10 ∧
    handleDestroy [[100], [52, 50, 57, 52, 57, 54, 55, 50, 57, 54]] 0 = some 0 ∧
    value [52, 50, 57, 52, 57, 54, 55, 50, 57, 54] = 2 ^ 32 ∧
    ¬ Means (2 ^ 32) [48, 49, 48] (parseUi [48, 49, 48] 0) ∧
    ¬ Means (2 ^ 32) [52, 50, 57, 52, 57, 54, 55, 50, 57, 54] (parseUi [52, 50, 57, 52, 57, 54, 55, 50, 57, 54] 0) := by
  refine ⟨by decide, by decide, by decide, by decide, ?_, ?_⟩
  · rintro ⟨hok, -⟩
    exact absurd ((hok 8).mp (by decide)).1.value (by decide)
  · rintro ⟨hok, -⟩
    exact absurd ((hok 0).mp (by decide)).1.value (by decide)

end ElastioSnap.Elioctl
