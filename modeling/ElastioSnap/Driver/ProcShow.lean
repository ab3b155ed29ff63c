import ElastioSnap.Driver.State
import ElastioSnap.Lib.Json

namespace ElastioSnap.Driver.ProcShow

open Lib.Json State
open Cow.Manager (Errno)

/-- What is listed of a device and of its manager and is not kept in `SnapDevice`. -/
structure Details where
  ignoreSnapErrors : Bool
  discardDropped : UInt64
  discardIgnored : UInt64
  cowOnBdev : Bool
  fileMax : UInt64
  seqid : UInt64
  uuid : Vector UInt8 16
  version : UInt64
  nrChangedBlocks : UInt64

inductive Printed
  | number (n : Int)
  | quoted (s : List Char)

/-- What `%i`, `%lu` and the like print, and what `%s` between quotes does. -/
def Printed.text : Printed → List Char
  | .number n => signed n
  | .quoted s => '\x22' :: s ++ ['\x22']

def Printed.value : Printed → Value
  | .number n => .num n
  | .quoted s => .str s

structure Field where
  key : String
  printed : Printed

/-- The members of an object; the last of them is not followed by a comma. -/
structure Entry where
  fields : List Field
  cowOnBdev : Bool

def Field.line (f : Field) : List Char := "\t\t\t\"".toList ++ f.key.toList ++ "\": ".toList ++ f.printed.text ++ ",\n".toList

def Entry.text (e : Entry) : List Char :=
  "\t\t\x7b\n".toList ++ e.fields.flatMap Field.line ++ "\t\t\t\"cow_on_bdev\": ".toList ++ boolText e.cowOnBdev ++
    "\n\t\t\x7d".toList

/-- A null pointer is printed, too. -/
def pathText : Option Path → List Char
  | none => "(null)".toList
  | some path => path.toList

def errorCode : Errno → Int
  | .enomem => -12
  | .eio => -5
  | .efault => -14
  | .einval => -22
  | .efbig => -27
  | .eopnotsupp => -95
  | .other n => -n

def readFailState (dev : SnapDevice) : Int :=
  match dev.failCode with
  | none => 0
  | some e => errorCode e

def sdState (dev : SnapDevice) : Nat := dev.snapshot.toNat + 2 * dev.active.toNat + 4 * dev.unverified.toNat

def hexByte (b : UInt8) : List Char := [Nat.digitChar (b.toNat / 16), Nat.digitChar (b.toNat % 16)]

/-- Where a device is listed. -/
inductive Elem
  | token
  | slot (i : Nat)

def header : List Char := "\x7b\n\t\"version\": \"0.12.11\",\n\t\"devices\": [\n".toList

def footer : List Char := "\n\t]\n\x7d\n".toList

variable (env : Env) (info : Nat → Details) (d : DriverState)

/-- The size of the COW file is read before the pointer to the manager is looked at. -/
def cowFields (dev : SnapDevice) (details : Details) : Option (List Field) :=
  if dev.unverified then some []
  else match dev.cow with
    | none => none
    | some _ => some
        ([⟨"fallocate", .number details.fileMax.toNat⟩, ⟨"seq_id", .number details.seqid.toNat⟩,
          ⟨"uuid", .quoted (details.uuid.toList.flatMap hexByte)⟩] ++
        if 0 < details.version then
          [⟨"version", .number details.version.toNat⟩, ⟨"nr_changed_blocks", .number details.nrChangedBlocks.toNat⟩]
        else [])

def entryOf (dev : SnapDevice) (details : Details) : Option Entry := do
  let cow ← cowFields dev details
  return {
    fields :=
      [⟨"minor", .number dev.minor⟩, ⟨"cow_file", .quoted (pathText dev.cowPath)⟩,
        ⟨"block_device", .quoted (pathText dev.bdevPath)⟩,
        ⟨"max_cache", .number (if dev.cacheSize ≠ 0 then dev.cacheSize else env.cowMaxMemoryDefault)⟩] ++ cow ++
      (if readFailState dev ≠ 0 then [⟨"error", .number (readFailState dev)⟩] else []) ++
      [⟨"state", .number (sdState dev)⟩, ⟨"ignore_errors", .number details.ignoreSnapErrors.toNat⟩,
        ⟨"bio_op_discard_ignored", .number details.discardDropped.toNat⟩,
        ⟨"discard_sectors_ignored", .number details.discardIgnored.toNat⟩]
    cowOnBdev := details.cowOnBdev }

/-- No text is printed where a device that was freed or a null pointer is read. -/
def procShow : Elem → Option (List Char)
  | .token => some (header ++ if d.lowestMinor > d.highestMinor then footer else [])
  | .slot i =>
      match d.snapDevices i with
      | none => some []
      | some a => do
          let dev ← d.devs a
          let entry ← entryOf env dev (info a)
          return (if dev.minor ≠ d.lowestMinor then ",\n".toList else []) ++ entry.text ++
            if dev.minor = d.highestMinor then footer else []

def procGetIdx (pos : Nat) : Option Elem := if pos > d.highestMinor then none else some (.slot pos)

def procStart (pos : Nat) : Option Elem := if pos = 0 then some .token else procGetIdx d (pos - 1)

def procNext (pos : Nat) : Option Elem × Nat := (procGetIdx d pos, pos + 1)

/-- A round of a sequential read, in which at most `n` elements are shown. -/
def seqRound : Nat → Option Elem → Nat → Option (List Char × Nat)
  | 0, _, pos => some ([], pos)
  | _ + 1, none, pos => some ([], pos)
  | n + 1, some v, pos => do
      let text ← procShow env info d v
      let (v, pos) := procNext d pos
      let (more, pos) ← seqRound n v pos
      return (text ++ more, pos)

/-- A read is cut into rounds, each of which starts where the last one came to. -/
def seqRead : List Nat → Nat → Option (List Char × Nat)
  | [], pos => some ([], pos)
  | n :: ns, pos => do
      let (text, pos) ← seqRound env info d n (procStart d pos) pos
      let (more, pos) ← seqRead ns pos
      return (text ++ more, pos)

/-- The device at a minor as it is listed. -/
def entryAt (i : Nat) : Option Entry := do
  let a ← d.snapDevices i
  let dev ← d.devs a
  entryOf env dev (info a)

def Entry.value (e : Entry) : Value :=
  .obj (e.fields.map (fun f => (f.key.toList, f.printed.value)) ++ [("cow_on_bdev".toList, .bool e.cowOnBdev)])

/-- What the listing is to say: the version, and the devices by their minors. -/
def listing : Value :=
  .obj [("version".toList, .str "0.12.11".toList),
    ("devices".toList, .arr (((List.range env.maxSnapDevices).filterMap (entryAt env info d)).map Entry.value))]

section Reading

def elems : List Elem := .token :: (List.range (d.highestMinor + 1)).map .slot

def showAll : List Elem → Option (List Char)
  | [] => some []
  | v :: vs => do return (← procShow env info d v) ++ (← showAll vs)

variable {env : Env} {info : Nat → Details} {d : DriverState} {vs ws : List Elem} {pos n : Nat} {ns : List Nat}

theorem procStart_eq : procStart d pos = (elems d)[pos]? := by
  cases pos with
  | zero => rfl
  | succ pos =>
      rw [procStart, if_neg (Nat.succ_ne_zero pos), elems, List.getElem?_cons_succ, List.getElem?_map, procGetIdx,
        Nat.add_sub_cancel]
      by_cases h : pos > d.highestMinor
      · rw [if_pos h, List.getElem?_eq_none (by rw [List.length_range]; omega)]
        rfl
      · rw [if_neg h, List.getElem?_range (by omega)]
        rfl

theorem showAll_append : showAll env info d (vs ++ ws) =
    (showAll env info d vs).bind fun a => (showAll env info d ws).map (a ++ ·) := by
  induction vs with
  | nil => simp [showAll]
  | cons v vs ih =>
      simp only [List.cons_append, showAll, ih]
      cases procShow env info d v with
      | none => rfl
      | some text =>
          cases showAll env info d vs with
          | none => rfl
          | some more =>
              cases showAll env info d ws with
              | none => rfl
              | some rest => simp

/-- A round shows the elements from its position on. -/
theorem seqRound_eq : seqRound env info d n (procStart d pos) pos =
    (showAll env info d (((elems d).drop pos).take n)).map fun text => (text, pos + (((elems d).drop pos).take n).length) := by
  induction n generalizing pos with
  | zero => rfl
  | succ n ih =>
      rw [procStart_eq]
      by_cases h : pos < (elems d).length
      · rw [List.getElem?_eq_getElem h, List.drop_eq_getElem_cons h, List.take_succ_cons, showAll, seqRound]
        cases procShow env info d (elems d)[pos] with
        | none => rfl
        | some text =>
            change ((seqRound env info d n (procStart d (pos + 1)) (pos + 1)).bind fun r => some (text ++ r.1, r.2)) = _
            rw [ih]
            cases showAll env info d (((elems d).drop (pos + 1)).take n) with
            | none => rfl
            | some more =>
                simp only [Option.map_some, Option.bind_eq_bind, Option.bind_some, Option.pure_def, List.length_cons]
                rw [Nat.add_right_comm, Nat.add_assoc]
      · rw [List.getElem?_eq_none (by omega), List.drop_eq_nil_of_le (by omega)]
        rfl

theorem seqRead_eq : seqRead env info d ns pos =
    (showAll env info d (((elems d).drop pos).take ns.sum)).map
      fun text => (text, pos + (((elems d).drop pos).take ns.sum).length) := by
  induction ns generalizing pos with
  | nil => rfl
  | cons n ns ih =>
      rw [seqRead, seqRound_eq, List.sum_cons, List.take_add, showAll_append]
      cases showAll env info d (((elems d).drop pos).take n) with
      | none => rfl
      | some text =>
          have hdrop : (elems d).drop (pos + (((elems d).drop pos).take n).length) = ((elems d).drop pos).drop n := by
            rw [List.drop_drop, List.length_take, List.length_drop]
            rcases Nat.le_total n ((elems d).length - pos) with h | h
            · rw [Nat.min_eq_left h]
            · rw [Nat.min_eq_right h, List.drop_eq_nil_of_le (by omega), List.drop_eq_nil_of_le (by omega)]
          simp only [Option.map_some, Option.bind_eq_bind, Option.bind_some, Option.pure_def, ih, hdrop]
          cases showAll env info d ((((elems d).drop pos).drop n).take ns.sum) with
          | none => rfl
          | some more =>
              simp only [Option.map_some, Option.bind_some, List.length_append, Nat.add_assoc]

theorem length_elems : (elems d).length = d.highestMinor + 2 := by
  rw [elems, List.length_cons, List.length_map, List.length_range]

/-- A read that goes on to its end shows everything, however it is cut. -/
theorem seqRead_all (h : d.highestMinor + 2 ≤ ns.sum) : seqRead env info d ns 0 =
    (showAll env info d (elems d)).map fun text => (text, d.highestMinor + 2) := by
  rw [seqRead_eq, List.drop_zero, List.take_of_length_le (by rw [length_elems]; exact h), length_elems, Nat.zero_add]

end Reading

section Text

variable {f : Field} {fs : List Field} {e : Entry} {rest : List Char} {tail : List Lexeme}

/-- What is printed between quotes has no characters that have to be escaped. -/
def Printed.Fine : Printed → Prop
  | .number _ => True
  | .quoted s => Plain s

def Field.lexemes (f : Field) : List Lexeme := .str f.key.toList :: .punct ':' :: f.printed.value.lexemes ++ [.punct ',']

theorem scan_key (hk : Plain f.key.toList) : scan .between ("\t\t\t\"".toList ++ f.key.toList ++ "\": ".toList) =
    some ([.str f.key.toList, .punct ':'], .between) := by
  have hopen : scan .between "\t\t\t\"".toList = some ([], .string []) := rfl
  rw [scan_append, scan_append, hopen, Option.bind_some, scan_plain hk, Option.map_some, Option.bind_some]
  have hclose : ∀ acc, scan (.string acc) "\": ".toList = some ([.str acc.reverse, .punct ':'], .between) := fun _ => rfl
  rw [hclose]
  simp

/-- A line is read back exactly if what it prints needed no escapes. -/
theorem lex_line_iff (hk : Plain f.key.toList) : lex .between (f.line ++ rest) = some (f.lexemes ++ tail) ↔
    f.printed.Fine ∧ lex .between rest = some tail := by
  have hkey : lex .between (f.line ++ rest) = some (f.lexemes ++ tail) ↔
      lex .between (f.printed.text ++ ',' :: '\n' :: rest) = some (f.printed.value.lexemes ++ .punct ',' :: tail) := by
    have h : lex .between (("\t\t\t\"".toList ++ f.key.toList ++ "\": ".toList) ++ (f.printed.text ++ ',' :: '\n' :: rest)) =
        some ([.str f.key.toList, .punct ':'] ++ (f.printed.value.lexemes ++ .punct ',' :: tail)) ↔ _ :=
      lex_part_iff (scan_key hk)
    refine Iff.trans (Eq.to_iff ?_) h
    delta Field.line
    rw [Field.lexemes]
    simp
  rw [hkey]
  cases hp : f.printed with
  | number n =>
      have hcomma : begin ',' = some ([.punct ','], .between) := rfl
      have hline : lex .between ('\n' :: rest) = lex .between rest := lex_cons rfl
      have hatom := lex_atom_iff ('\n' :: rest) tail (signed_atomChars n) (isAtom_signed n) rfl hcomma
      rw [hline] at hatom
      exact hatom.trans (iff_and_self.mpr fun _ => trivial)
  | quoted s =>
      have hquote : lex .between ('\x22' :: (s ++ close rest)) = lex (.string []) (s ++ close rest) := lex_cons rfl
      have htext : (Printed.quoted s).text ++ ',' :: '\n' :: rest = '\x22' :: (s ++ close rest) := by
        simp [Printed.text, close]
      have hcomma : lex .between (',' :: '\n' :: rest) = some ([.punct ','] ++ tail) ↔ lex .between ('\n' :: rest) = some tail :=
        lex_part_iff (a := [',']) rfl
      have hline : lex .between ('\n' :: rest) = lex .between rest := lex_cons rfl
      rw [hline] at hcomma
      rw [htext, hquote]
      exact lex_string_iff.trans (and_congr_right fun _ => hcomma)

theorem lex_lines_iff (hk : ∀ f ∈ fs, Plain f.key.toList) :
    lex .between (fs.flatMap Field.line ++ rest) = some (fs.flatMap Field.lexemes ++ tail) ↔
      (∀ f ∈ fs, f.printed.Fine) ∧ lex .between rest = some tail := by
  induction fs with
  | nil => simp
  | cons f fs ih =>
      rw [List.flatMap_cons, List.flatMap_cons, List.append_assoc, List.append_assoc, lex_line_iff (hk f List.mem_cons_self),
        ih fun g hg => hk g (List.mem_cons_of_mem f hg), List.forall_mem_cons, and_assoc]

/-- The entry of a device. -/
def Entry.Good (e : Entry) : Prop := ∀ f ∈ e.fields, Plain f.key.toList

def Entry.Fine (e : Entry) : Prop := ∀ f ∈ e.fields, f.printed.Fine

theorem Entry.value_lexemes : e.value.lexemes = .punct '\x7b' :: (e.fields.flatMap Field.lexemes ++
    (.str "cow_on_bdev".toList :: .punct ':' :: [.atom (boolText e.cowOnBdev)]) ++ [.punct '\x7d']) := by
  rw [Entry.value, Value.lexemes, members_append, List.flatMap_map, Value.lexemes]
  rfl

theorem lex_entry_iff (hk : e.Good) : lex .between (e.text ++ rest) = some (e.value.lexemes ++ tail) ↔
    e.Fine ∧ lex .between rest = some tail := by
  have hopen : lex .between (e.text ++ rest) = some (e.value.lexemes ++ tail) ↔
      lex .between (e.fields.flatMap Field.line ++ ("\t\t\t\"cow_on_bdev\": ".toList ++ boolText e.cowOnBdev ++
        "\n\t\t\x7d".toList ++ rest)) = some (e.fields.flatMap Field.lexemes ++
        (.str "cow_on_bdev".toList :: .punct ':' :: .atom (boolText e.cowOnBdev) :: .punct '\x7d' :: tail)) := by
    have hbrace : scan .between "\t\t\x7b\n".toList = some ([.punct '\x7b'], .between) := rfl
    refine Iff.trans (Eq.to_iff ?_) (lex_part_iff hbrace)
    delta Entry.text
    rw [Entry.value_lexemes]
    simp
  rw [hopen, lex_lines_iff hk, Entry.Fine]
  refine and_congr_right fun _ => ?_
  cases e.cowOnBdev with
  | true =>
      have hlast : scan .between "\t\t\t\"cow_on_bdev\": true\n\t\t\x7d".toList =
          some (.str "cow_on_bdev".toList :: .punct ':' :: .atom (boolText true) :: [.punct '\x7d'], .between) := rfl
      exact lex_part_iff hlast
  | false =>
      have hlast : scan .between "\t\t\t\"cow_on_bdev\": false\n\t\t\x7d".toList =
          some (.str "cow_on_bdev".toList :: .punct ':' :: .atom (boolText false) :: [.punct '\x7d'], .between) := rfl
      exact lex_part_iff hlast

end Text

end ElastioSnap.Driver.ProcShow
