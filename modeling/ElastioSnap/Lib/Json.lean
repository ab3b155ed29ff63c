import Mathlib.Data.List.Basic

namespace ElastioSnap.Lib.Json

/-- A value without fractions and exponents. -/
inductive Value
  | num (n : Int)
  | bool (b : Bool)
  | str (s : List Char)
  | arr (vs : List Value)
  | obj (ms : List (List Char × Value))

/-- Numbers and the words `true`, `false` and `null` stand for themselves; strings are decoded. -/
inductive Lexeme
  | punct (c : Char)
  | atom (text : List Char)
  | str (s : List Char)
  deriving DecidableEq

def decimal (n : Nat) : List Char := Nat.toDigits 10 n

def signed : Int → List Char
  | .ofNat n => decimal n
  | .negSucc n => '-' :: decimal (n + 1)

def boolText (b : Bool) : List Char := if b then "true".toList else "false".toList

mutual

/-- What a text of the value consists of. -/
def Value.lexemes : Value → List Lexeme
  | .num n => [.atom (signed n)]
  | .bool b => [.atom (boolText b)]
  | .str s => [.str s]
  | .arr vs => .punct '[' :: elements vs ++ [.punct ']']
  | .obj ms => .punct '{' :: members ms ++ [.punct '}']

def elements : List Value → List Lexeme
  | [] => []
  | v :: vs => v.lexemes ++ match vs with
    | [] => []
    | w :: ws => .punct ',' :: elements (w :: ws)

def members : List (List Char × Value) → List Lexeme
  | [] => []
  | (k, v) :: ms => .str k :: .punct ':' :: v.lexemes ++ match ms with
    | [] => []
    | m :: ms => .punct ',' :: members (m :: ms)

end

/-- What is being read. Strings and atoms are read backwards, and of an escaped code point some digits are missing. -/
inductive Mode
  | between
  | atom (acc : List Char)
  | string (acc : List Char)
  | escape (acc : List Char)
  | code (acc : List Char) (missing n : Nat)
  deriving DecidableEq

def isSpace (c : Char) : Bool := c = ' ' || c = '\t' || c = '\n' || c = '\r'

def isPunct (c : Char) : Bool := c = '\x7b' || c = '\x7d' || c = '[' || c = ']' || c = ':' || c = ','

def isAtomChar (c : Char) : Bool := c.isDigit || c.isLower || c = '-'

/-- The grammar of whole numbers. -/
def isWhole : List Char → Bool
  | [] => false
  | c :: cs => if c = '0' then cs.isEmpty else c.isDigit && cs.all Char.isDigit

def unsigned : List Char → List Char
  | [] => []
  | c :: cs => if c = '-' then cs else c :: cs

def isAtom (text : List Char) : Bool :=
  text = "true".toList || text = "false".toList || text = "null".toList || isWhole (unsigned text)

def unescaped (c : Char) : Option Char :=
  if c = '\x22' ∨ c = '\x5c' ∨ c = '/' then some c
  else if c = 'b' then some '\x08'
  else if c = 'f' then some '\x0c'
  else if c = 'n' then some '\n'
  else if c = 'r' then some '\r'
  else if c = 't' then some '\t'
  else none

def hexDigit (c : Char) : Option Nat :=
  if c.isDigit then some (c.toNat - '0'.toNat)
  else if 'a' ≤ c ∧ c ≤ 'f' then some (c.toNat - 'a'.toNat + 10)
  else if 'A' ≤ c ∧ c ≤ 'F' then some (c.toNat - 'A'.toNat + 10)
  else none

/-- A character between two lexemes. -/
def begin (c : Char) : Option (List Lexeme × Mode) :=
  if isSpace c then some ([], .between)
  else if isPunct c then some ([.punct c], .between)
  else if c = '\x22' then some ([], .string [])
  else if isAtomChar c then some ([], .atom [c])
  else none

/-- The halves of a surrogate pair are not read. -/
def step : Mode → Char → Option (List Lexeme × Mode)
  | .between, c => begin c
  | .atom acc, c =>
      if isAtomChar c then some ([], .atom (c :: acc))
      else if isAtom acc.reverse then (begin c).map fun r => (.atom acc.reverse :: r.1, r.2)
      else none
  | .string acc, c =>
      if c = '\x22' then some ([.str acc.reverse], .between)
      else if c = '\x5c' then some ([], .escape acc)
      else if c.toNat < 32 then none
      else some ([], .string (c :: acc))
  | .escape acc, c =>
      if c = 'u' then some ([], .code acc 4 0)
      else (unescaped c).map fun x => ([], .string (x :: acc))
  | .code acc missing n, c =>
      match hexDigit c with
      | none => none
      | some h =>
          let n := n * 16 + h
          if missing ≤ 1 then
            if n.isValidChar then some ([], .string (Char.ofNat n :: acc)) else none
          else some ([], .code acc (missing - 1) n)

def finish : Mode → Option (List Lexeme)
  | .between => some []
  | .atom acc => if isAtom acc.reverse then some [.atom acc.reverse] else none
  | _ => none

def lex : Mode → List Char → Option (List Lexeme)
  | mode, [] => finish mode
  | mode, c :: cs => (step mode c).bind fun r => (lex r.2 cs).map (r.1 ++ ·)

/-- A part of a text. -/
def scan : Mode → List Char → Option (List Lexeme × Mode)
  | mode, [] => some ([], mode)
  | mode, c :: cs => (step mode c).bind fun r => (scan r.2 cs).map fun q => (r.1 ++ q.1, q.2)

/-- The text is one of the value. -/
def Denotes (text : List Char) (v : Value) : Prop := lex .between text = some v.lexemes

variable {mode mode' : Mode} {a b p rest key : List Char} {out tail : List Lexeme} {c : Char} {n : Nat}

theorem lex_append : lex mode (a ++ b) = (scan mode a).bind fun r => (lex r.2 b).map (r.1 ++ ·) := by
  induction a generalizing mode with
  | nil => simp [scan]
  | cons c cs ih =>
      rw [List.cons_append, lex, scan]
      cases step mode c with
      | none => rfl
      | some r =>
          simp only [Option.bind_some, ih]
          cases scan r.2 cs with
          | none => rfl
          | some q =>
              simp only [Option.bind_some, Option.map_some, Option.map_map]
              congr 1
              funext out
              exact (List.append_assoc ..).symm

theorem scan_append : scan mode (a ++ b) = (scan mode a).bind fun r => (scan r.2 b).map fun q => (r.1 ++ q.1, q.2) := by
  induction a generalizing mode with
  | nil => simp [scan]
  | cons c cs ih =>
      rw [List.cons_append, scan, scan]
      cases step mode c with
      | none => rfl
      | some r =>
          simp only [Option.bind_some, ih]
          cases scan r.2 cs with
          | none => rfl
          | some q =>
              simp only [Option.bind_some, Option.map_some, Option.map_map]
              congr 1
              funext x
              exact Prod.ext (List.append_assoc ..).symm rfl

/-- A part that is read in one way only is read off. -/
theorem lex_part_iff (h : scan mode a = some (out, mode')) :
    lex mode (a ++ b) = some (out ++ tail) ↔ lex mode' b = some tail := by
  rw [lex_append, h, Option.bind_some, Option.map_eq_some_iff]
  constructor
  · rintro ⟨t, ht, heq⟩
    rw [ht, List.append_cancel_left heq]
  · exact fun ht => ⟨tail, ht, rfl⟩

/-- A character that stands for itself in a string. -/
def isPlain (c : Char) : Bool := c ≠ '\x22' && c ≠ '\x5c' && !decide (c.toNat < 32)

def Plain (p : List Char) : Prop := ∀ c ∈ p, isPlain c = true

instance : Decidable (Plain p) := decidable_of_iff (p.all isPlain = true) List.all_eq_true

theorem step_plain (h : isPlain c = true) (acc : List Char) : step (.string acc) c = some ([], .string (c :: acc)) := by
  simp only [isPlain, Bool.and_eq_true, decide_eq_true_eq, Bool.not_eq_true', decide_eq_false_iff_not] at h
  obtain ⟨⟨hq, hb⟩, hc⟩ := h
  rw [step, if_neg hq, if_neg hb, if_neg hc]

theorem scan_plain (h : Plain p) (acc : List Char) : scan (.string acc) p = some ([], .string (p.reverse ++ acc)) := by
  induction p generalizing acc with
  | nil => rfl
  | cons c cs ih =>
      rw [scan, step_plain (h c List.mem_cons_self), Option.bind_some, ih fun x hx => h x (List.mem_cons_of_mem c hx)]
      simp

/-- A string is closed, and a new line begins after the comma. -/
def close (rest : List Char) : List Char := '\x22' :: ',' :: '\n' :: rest

theorem lex_escaped_end {acc : List Char} : lex (.escape acc) (close rest) = none := rfl

theorem lex_code {acc s : List Char} {t : List Lexeme} {missing : Nat} (hm : 0 < missing)
    (h : lex (.code acc missing n) (p ++ close rest) = some (.str s :: t)) :
    ∃ x q, q.length + missing = p.length ∧ lex (.string (x :: acc)) (q ++ close rest) = some (.str s :: t) := by
  induction missing generalizing p n with
  | zero => omega
  | succ missing ih =>
      cases p with
      | nil => cases h
      | cons c cs =>
          rw [List.cons_append, lex, step] at h
          cases hc : hexDigit c with
          | none =>
              rw [hc] at h
              cases h
          | some d =>
              rw [hc] at h
              dsimp only at h
              by_cases hlast : missing + 1 ≤ 1
              · rw [if_pos hlast] at h
                by_cases hv : (n * 16 + d).isValidChar
                · rw [if_pos hv, Option.bind_some, Option.map_eq_some_iff] at h
                  obtain ⟨t', ht', rfl⟩ := h
                  exact ⟨_, cs, by rw [List.length_cons]; omega, ht'⟩
                · rw [if_neg hv] at h
                  cases h
              · rw [if_neg hlast, Option.bind_some, Option.map_eq_some_iff] at h
                obtain ⟨t', ht', rfl⟩ := h
                obtain ⟨x, q, hq, hlex⟩ := ih (by omega) ht'
                exact ⟨x, q, by rw [List.length_cons]; omega, hlex⟩

theorem lex_cons (h : step mode c = some ([], mode')) : lex mode (c :: a) = lex mode' a := by
  rw [lex, h, Option.bind_some]
  cases lex mode' a <;> rfl

theorem lex_quote {acc s : List Char} {t : List Lexeme} (h : lex (.string acc) ('\x22' :: a) = some (.str s :: t)) :
    s = acc.reverse ∧ lex .between a = some t := by
  rw [lex, step, if_pos rfl, Option.bind_some, Option.map_eq_some_iff] at h
  obtain ⟨t', ht', heq⟩ := h
  obtain ⟨hs, rfl⟩ := List.cons.inj heq
  exact ⟨(Lexeme.str.inj hs).symm, ht'⟩

/-- A string that is read from a text has no more characters than the text, and has less of them if some did not stand
for themselves. -/
theorem lex_string_length {acc s : List Char} {t : List Lexeme}
    (h : lex (.string acc) (p ++ close rest) = some (.str s :: t)) :
    s.length ≤ acc.length + p.length ∧ (¬ Plain p → s.length < acc.length + p.length) := by
  induction hn : p.length using Nat.strongRecOn generalizing p acc with
  | ind n ih =>
      subst hn
      cases p with
      | nil =>
          obtain ⟨rfl, -⟩ := lex_quote h
          rw [List.length_reverse]
          exact ⟨Nat.le_refl _, fun hp => absurd (fun _ hc => by cases hc) hp⟩
      | cons c cs =>
          rw [List.cons_append] at h
          by_cases hq : c = '\x22'
          · obtain ⟨rfl, -⟩ := lex_quote (hq ▸ h)
            rw [List.length_reverse, List.length_cons]
            exact ⟨by omega, fun _ => by omega⟩
          by_cases hb : c = '\x5c'
          · have hescape : step (.string acc) c = some ([], .escape acc) := by
              rw [step, if_neg hq, if_pos hb]
            rw [lex_cons hescape] at h
            cases cs with
            | nil =>
                rw [List.nil_append, lex_escaped_end] at h
                cases h
            | cons e es =>
                rw [List.cons_append] at h
                by_cases hu : e = 'u'
                · have hcode : step (.escape acc) e = some ([], .code acc 4 0) := by
                    rw [step, if_pos hu]
                  rw [lex_cons hcode] at h
                  obtain ⟨x, q, hlen, hlex⟩ := lex_code (by omega) h
                  have hle := (ih q.length (by simp only [List.length_cons]; omega) hlex rfl).1
                  simp only [List.length_cons] at hle ⊢
                  exact ⟨by omega, fun _ => by omega⟩
                · cases hx : unescaped e with
                  | none =>
                      rw [lex, step, if_neg hu, hx] at h
                      cases h
                  | some x =>
                      have hchar : step (.escape acc) e = some ([], .string (x :: acc)) := by
                        rw [step, if_neg hu, hx, Option.map_some]
                      rw [lex_cons hchar] at h
                      have hle := (ih es.length (by simp only [List.length_cons]; omega) h rfl).1
                      simp only [List.length_cons] at hle ⊢
                      exact ⟨by omega, fun _ => by omega⟩
          by_cases hc : c.toNat < 32
          · rw [lex, step, if_neg hq, if_neg hb, if_pos hc] at h
            cases h
          · have hplain : step (.string acc) c = some ([], .string (c :: acc)) := by
              rw [step, if_neg hq, if_neg hb, if_neg hc]
            rw [lex_cons hplain] at h
            obtain ⟨hle, hlt⟩ := ih cs.length (Nat.lt_succ_self _) h rfl
            simp only [List.length_cons] at hle hlt ⊢
            refine ⟨by omega, fun hp => ?_⟩
            have hrest : ¬ Plain cs := by
              intro hcs
              refine hp fun x hx => ?_
              rcases List.mem_cons.mp hx with rfl | hx
              · simp only [isPlain, hq, hb, hc, ne_eq, not_false_eq_true, decide_true, decide_false, Bool.not_false, Bool.and_self]
              · exact hcs x hx
            have hlt := hlt hrest
            omega

/-- Printed between quotes, a text is read as the string that it is exactly if all its characters stand for themselves. -/
theorem lex_string_iff : lex (.string []) (p ++ close rest) = some (.str p :: tail) ↔
    Plain p ∧ lex .between (',' :: '\n' :: rest) = some tail := by
  have hplain : Plain p → (lex (.string []) (p ++ close rest) = some (.str p :: tail) ↔
      lex .between (',' :: '\n' :: rest) = some tail) := by
    intro hp
    have hread : lex (.string []) (p ++ close rest) = some ([] ++ .str p :: tail) ↔
        lex (.string (p.reverse ++ [])) (close rest) = some (.str p :: tail) := lex_part_iff (scan_plain hp [])
    have hquote : scan (.string (p.reverse ++ [])) ['\x22'] = some ([.str p], .between) := by
      rw [scan, step, if_pos rfl, List.append_nil, List.reverse_reverse]
      rfl
    exact hread.trans (lex_part_iff hquote)
  constructor
  · intro h
    have hp : Plain p := by
      by_contra hp
      have hlt := (lex_string_length h).2 hp
      rw [List.length_nil] at hlt
      omega
    exact ⟨hp, (hplain hp).mp h⟩
  · exact fun h => (hplain h.1).mpr h.2

theorem begin_atomChar (h : isAtomChar c = true) : begin c = some ([], .atom [c]) := by
  have hspace : isSpace c = false := by
    by_contra hs
    simp only [isSpace, Bool.or_eq_false_iff, decide_eq_false_iff_not, not_and_or, not_not] at hs
    rcases hs with ((rfl | rfl) | rfl) | rfl <;> cases h
  have hpunct : isPunct c = false := by
    by_contra hs
    simp only [isPunct, Bool.or_eq_false_iff, decide_eq_false_iff_not, not_and_or, not_not] at hs
    rcases hs with ((((rfl | rfl) | rfl) | rfl) | rfl) | rfl <;> cases h
  have hquote : c ≠ '\x22' := by
    rintro rfl
    cases h
  rw [begin, hspace, hpunct, if_neg Bool.false_ne_true, if_neg Bool.false_ne_true, if_neg hquote, if_pos h]

theorem scan_atomChars (h : ∀ x ∈ p, isAtomChar x = true) (acc : List Char) :
    scan (.atom acc) p = some ([], .atom (p.reverse ++ acc)) := by
  induction p generalizing acc with
  | nil => rfl
  | cons c cs ih =>
      rw [scan, step, if_pos (h c List.mem_cons_self), Option.bind_some, ih fun x hx => h x (List.mem_cons_of_mem c hx)]
      simp

/-- Numbers and words end at the character behind them. -/
theorem lex_atom_iff (rest : List Char) (tail : List Lexeme) (hall : ∀ x ∈ p, isAtomChar x = true)
    (hatom : isAtom p = true) (hc : isAtomChar c = false)
    (hbegin : begin c = some (out, .between)) :
    lex .between (p ++ c :: rest) = some (.atom p :: out ++ tail) ↔ lex .between rest = some tail := by
  have hscan : scan .between (p ++ [c]) = some (.atom p :: out, .between) := by
    cases p with
    | nil => cases hatom
    | cons x xs =>
        have hread : scan .between (x :: xs) = some ([], .atom (x :: xs).reverse) := by
          rw [scan, step, begin_atomChar (hall x List.mem_cons_self), Option.bind_some,
            scan_atomChars fun y hy => hall y (List.mem_cons_of_mem x hy)]
          simp
        have hend : step (.atom (x :: xs).reverse) c = some (.atom (x :: xs) :: out, .between) := by
          rw [step, if_neg (by rw [hc]; exact Bool.false_ne_true), List.reverse_reverse, if_pos hatom, hbegin, Option.map_some]
        rw [scan_append, hread, Option.bind_some, scan, hend]
        simp [scan]
  rw [← List.singleton_append, ← List.append_assoc]
  exact lex_part_iff hscan

theorem decimal_isDigit (h : c ∈ decimal n) : c.isDigit = true := Nat.isDigit_of_mem_toDigits (by omega) (by omega) h

/-- No number but zero is written with a zero in front. -/
theorem decimal_head (h : 0 < n) : ∃ c cs, decimal n = c :: cs ∧ c ≠ '0' := by
  induction n using Nat.strongRecOn with
  | ind n ih =>
      by_cases hlt : n < 10
      · have hdigits : ∀ k, k < 10 → 0 < k → k.digitChar ≠ '0' := by decide
        exact ⟨n.digitChar, [], Nat.toDigits_of_lt_base hlt, hdigits n hlt h⟩
      · obtain ⟨c, cs, heq, hc⟩ := ih (n / 10) (by omega) (by omega)
        refine ⟨c, cs ++ [(n % 10).digitChar], ?_, hc⟩
        rw [decimal, Nat.toDigits_of_base_le (by omega) (by omega)]
        exact congrArg (· ++ [(n % 10).digitChar]) heq

theorem isWhole_decimal : isWhole (decimal n) = true := by
  rcases Nat.eq_zero_or_pos n with rfl | hpos
  · rfl
  · obtain ⟨c, cs, heq, hc⟩ := decimal_head hpos
    have hall : ∀ x ∈ c :: cs, x.isDigit = true := fun x hx => decimal_isDigit (heq ▸ hx)
    rw [heq, isWhole, if_neg hc, hall c List.mem_cons_self, Bool.true_and, List.all_eq_true]
    exact fun x hx => hall x (List.mem_cons_of_mem c hx)

theorem unsigned_decimal : unsigned (decimal n) = decimal n := by
  cases heq : decimal n with
  | nil => rfl
  | cons c cs =>
      have hc : c ≠ '-' := by
        rintro rfl
        have hdigit := decimal_isDigit (n := n) (heq ▸ List.mem_cons_self)
        cases hdigit
      rw [unsigned, if_neg hc]

theorem isAtom_signed (z : Int) : isAtom (signed z) = true := by
  have hwhole : isWhole (unsigned (signed z)) = true := by
    cases z with
    | ofNat n => rw [signed, unsigned_decimal, isWhole_decimal]
    | negSucc n => rw [signed, unsigned, if_pos rfl, isWhole_decimal]
  rw [isAtom, hwhole, Bool.or_true]

theorem signed_atomChars (z : Int) : ∀ c ∈ signed z, isAtomChar c = true := by
  have hdigits : ∀ n, ∀ c ∈ decimal n, isAtomChar c = true := fun n c hc => by
    rw [isAtomChar, decimal_isDigit hc, Bool.true_or, Bool.true_or]
  intro c hc
  cases z with
  | ofNat n => exact hdigits n c hc
  | negSucc n =>
      rcases List.mem_cons.mp hc with rfl | hc
      · rfl
      · exact hdigits _ c hc

theorem elements_cons {v : Value} {vs : List Value} :
    elements (v :: vs) = v.lexemes ++ vs.flatMap fun w => .punct ',' :: w.lexemes := by
  induction vs generalizing v with
  | nil => rw [elements, List.flatMap_nil]
  | cons w ws ih => rw [elements, ih, List.flatMap_cons, List.cons_append]

theorem members_cons {k l : List Char} {v w : Value} {ms : List (List Char × Value)} :
    members ((k, v) :: (l, w) :: ms) = (.str k :: .punct ':' :: v.lexemes ++ [.punct ',']) ++ members ((l, w) :: ms) := by
  rw [members]
  simp

theorem members_append {ms : List (List Char × Value)} {k : List Char} {v : Value} :
    members (ms ++ [(k, v)]) =
      (ms.flatMap fun m => .str m.1 :: .punct ':' :: m.2.lexemes ++ [.punct ',']) ++ .str k :: .punct ':' :: v.lexemes := by
  induction ms with
  | nil => rw [List.nil_append, members, List.append_nil, List.flatMap_nil, List.nil_append]
  | cons m ms ih =>
      obtain ⟨l, w⟩ := m
      cases ms with
      | nil =>
          rw [List.cons_append, List.nil_append, members_cons, members, List.flatMap_cons, List.flatMap_nil, List.append_nil,
            List.append_nil]
      | cons m ms =>
          obtain ⟨l', w'⟩ := m
          rw [List.cons_append, List.cons_append, members_cons, ← List.cons_append, ih, List.flatMap_cons (x := (l, w))]
          exact (List.append_assoc ..).symm

end ElastioSnap.Lib.Json
