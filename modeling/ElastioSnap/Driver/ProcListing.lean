import ElastioSnap.Driver.Iteration
import ElastioSnap.Driver.ProcShow

namespace ElastioSnap.Driver.ProcListing

open Lib.Runs Lib.Json State Events Component Rows Disks Steps Minors Ranges Iteration ProcShow

section Table

/-- Every pointer in the table is that of a device that was not freed and that has its manager. -/
def Readable (d : DriverState) : Prop :=
  ∀ i a, d.snapDevices i = some a → ∃ dev, d.devs a = some dev ∧ (dev.unverified = false → dev.cow.isSome = true)

def slotLine (env : Env) (info : Nat → Details) (d : DriverState) (i : Nat) : List Char :=
  match entryAt env info d i with
  | none => []
  | some e => (if i ≠ d.lowestMinor then ",\n".toList else []) ++ e.text

def slotLexemes (env : Env) (info : Nat → Details) (d : DriverState) (i : Nat) : List Lexeme :=
  match entryAt env info d i with
  | none => []
  | some e => (if i ≠ d.lowestMinor then [.punct ','] else []) ++ e.value.lexemes

variable {env : Env} {info : Nat → Details} {d : DriverState} {dev : SnapDevice} {details : Details} {e : Entry} {i n : Nat}
  {is : List Nat} {rest : List Char} {tail : List Lexeme}

theorem entryOf_isSome : (entryOf env dev details).isSome = true ↔ (dev.unverified = false → dev.cow.isSome = true) := by
  rw [entryOf, cowFields]
  cases dev.unverified with
  | true => simp
  | false =>
      cases dev.cow with
      | none => simp
      | some c => simp

theorem plain_hexByte (b : UInt8) : Plain (hexByte b) := by
  have hdigits : ∀ k, k < 16 → isPlain k.digitChar = true := by decide
  have hb := b.toNat_lt
  intro c hc
  rw [hexByte, List.mem_cons, List.mem_singleton] at hc
  rcases hc with rfl | rfl
  · exact hdigits _ (by omega)
  · exact hdigits _ (by omega)

theorem cowFields_plain {fs : List Field} (h : cowFields dev details = some fs) :
    ∀ f ∈ fs, Plain f.key.toList ∧ f.printed.Fine := by
  have huuid : Plain (details.uuid.toList.flatMap hexByte) := by
    intro c hc
    obtain ⟨b, -, hb⟩ := List.mem_flatMap.mp hc
    exact plain_hexByte b c hb
  have hkeys : ∀ k ∈ ["fallocate", "seq_id", "uuid", "version", "nr_changed_blocks"], Plain k.toList := by decide
  rw [cowFields] at h
  cases hu : dev.unverified with
  | true =>
      rw [hu, if_pos rfl, Option.some.injEq] at h
      subst h
      exact fun _ hf => by cases hf
  | false =>
      rw [hu, if_neg Bool.false_ne_true] at h
      cases hc : dev.cow with
      | none =>
          rw [hc] at h
          cases h
      | some c =>
          rw [hc, Option.some.injEq] at h
          subst h
          intro f hf
          rw [List.mem_append] at hf
          rcases hf with hf | hf
          · simp only [List.mem_cons, List.not_mem_nil, or_false] at hf
            rcases hf with rfl | rfl | rfl
            · exact ⟨hkeys _ (by simp), trivial⟩
            · exact ⟨hkeys _ (by simp), trivial⟩
            · exact ⟨hkeys _ (by simp), huuid⟩
          · split at hf
            · simp only [List.mem_cons, List.not_mem_nil, or_false] at hf
              rcases hf with rfl | rfl
              · exact ⟨hkeys _ (by simp), trivial⟩
              · exact ⟨hkeys _ (by simp), trivial⟩
            · cases hf

/-- Only the paths of a device may need escapes. -/
theorem entryOf_fields (h : entryOf env dev details = some e) : e.Good ∧
    (e.Fine ↔ Plain (pathText dev.cowPath) ∧ Plain (pathText dev.bdevPath)) := by
  rw [entryOf] at h
  obtain ⟨fs, hfs, h⟩ := Option.bind_eq_some_iff.mp h
  obtain rfl := Option.some.inj h
  have hcow := cowFields_plain hfs
  have hkeys : ∀ k ∈ ["minor", "cow_file", "block_device", "max_cache", "error", "state", "ignore_errors",
      "bio_op_discard_ignored", "discard_sectors_ignored"], Plain k.toList := by decide
  have herror : ∀ f ∈ (if readFailState dev ≠ 0 then [⟨"error", .number (readFailState dev)⟩] else [] : List Field),
      f = ⟨"error", .number (readFailState dev)⟩ := by
    intro f hf
    split at hf
    · exact List.mem_singleton.mp hf
    · cases hf
  constructor
  · intro f hf
    simp only [List.mem_append, List.mem_cons, List.not_mem_nil, or_false] at hf
    rcases hf with (((rfl | rfl | rfl | rfl) | hf) | hf) | (rfl | rfl | rfl | rfl)
    · exact hkeys _ (by simp)
    · exact hkeys _ (by simp)
    · exact hkeys _ (by simp)
    · exact hkeys _ (by simp)
    · exact (hcow f hf).1
    · rw [herror f hf]
      exact hkeys _ (by simp)
    · exact hkeys _ (by simp)
    · exact hkeys _ (by simp)
    · exact hkeys _ (by simp)
    · exact hkeys _ (by simp)
  · constructor
    · intro hfine
      exact ⟨hfine ⟨"cow_file", .quoted (pathText dev.cowPath)⟩ (by simp),
        hfine ⟨"block_device", .quoted (pathText dev.bdevPath)⟩ (by simp)⟩
    · rintro ⟨hp, hq⟩ f hf
      simp only [List.mem_append, List.mem_cons, List.not_mem_nil, or_false] at hf
      rcases hf with (((rfl | rfl | rfl | rfl) | hf) | hf) | (rfl | rfl | rfl | rfl)
      · trivial
      · exact hp
      · exact hq
      · trivial
      · exact (hcow f hf).2
      · rw [herror f hf]
        trivial
      · trivial
      · trivial
      · trivial
      · trivial

theorem entryAt_eq_some : entryAt env info d i = some e ↔
    ∃ a dev, d.snapDevices i = some a ∧ d.devs a = some dev ∧ entryOf env dev (info a) = some e := by
  simp only [entryAt, Option.bind_eq_bind, Option.bind_eq_some_iff, exists_and_left]

theorem good_entryAt (h : entryAt env info d i = some e) : e.Good := by
  obtain ⟨a, dev, -, -, he⟩ := entryAt_eq_some.mp h
  exact (entryOf_fields he).1

theorem lex_slots_iff : lex .between (is.flatMap (slotLine env info d) ++ rest) =
      some (is.flatMap (slotLexemes env info d) ++ tail) ↔
    (∀ i ∈ is, ∀ e, entryAt env info d i = some e → e.Fine) ∧ lex .between rest = some tail := by
  induction is with
  | nil => simp
  | cons i is ih =>
      rw [List.flatMap_cons, List.flatMap_cons, List.append_assoc, List.append_assoc, List.forall_mem_cons, and_assoc, ← ih,
        slotLine, slotLexemes]
      cases he : entryAt env info d i with
      | none => simp
      | some e =>
          have hgood : e.Good := good_entryAt he
          simp only [Option.some.injEq, forall_eq']
          by_cases hi : i ≠ d.lowestMinor
          · rw [if_pos hi, if_pos hi, List.append_assoc, List.append_assoc, lex_part_iff rfl,
              lex_entry_iff hgood]
          · rw [if_neg hi, if_neg hi, List.nil_append, List.nil_append, lex_entry_iff hgood]

theorem slots_lexemes (h : ∀ i ∈ is, i ≠ d.lowestMinor) : is.flatMap (slotLexemes env info d) =
    ((is.filterMap (entryAt env info d)).map Entry.value).flatMap fun v => .punct ',' :: v.lexemes := by
  induction is with
  | nil => rfl
  | cons i is ih =>
      rw [List.flatMap_cons, ih fun j hj => h j (List.mem_cons_of_mem i hj), slotLexemes]
      cases he : entryAt env info d i with
      | none => rw [List.filterMap_cons_none he, List.nil_append]
      | some e =>
          rw [List.filterMap_cons_some he, List.map_cons, List.flatMap_cons]
          dsimp only
          rw [if_pos (h i List.mem_cons_self), List.singleton_append]

theorem readable_entryAt (hr : Readable d) {a : Nat} (hi : d.snapDevices i = some a) :
    ∃ dev e, d.devs a = some dev ∧ entryOf env dev (info a) = some e := by
  obtain ⟨dev, hdev, hcow⟩ := hr i a hi
  obtain ⟨e, he⟩ := Option.isSome_iff_exists.mp (entryOf_isSome.mpr hcow)
  exact ⟨dev, e, hdev, he⟩

theorem procShow_slot (hs : Sound env d) (hr : Readable d) : procShow env info d (.slot i) =
    some (slotLine env info d i ++ if (entryAt env info d i).isSome ∧ i = d.highestMinor then footer else []) := by
  cases hi : d.snapDevices i with
  | none =>
      have hnone : entryAt env info d i = none := by
        rw [entryAt, hi]
        rfl
      rw [procShow, slotLine, hi, hnone]
      rfl
  | some a =>
      obtain ⟨dev, e, hdev, he⟩ := readable_entryAt hr hi
      have hminor : dev.minor = i := hs.minor (row_eq_some.mpr ⟨a, hi, hdev⟩)
      have hat : entryAt env info d i = some e := entryAt_eq_some.mpr ⟨a, dev, hi, hdev, he⟩
      rw [procShow, slotLine, hi, hat]
      dsimp only
      rw [hdev, Option.bind_eq_bind, Option.bind_some, he, Option.bind_eq_bind, Option.bind_some, hminor]
      simp

theorem showAll_slots (hs : Sound env d) (hr : Readable d) (h : ∀ i ∈ is, i ≠ d.highestMinor) :
    showAll env info d (is.map .slot) = some (is.flatMap (slotLine env info d)) := by
  induction is with
  | nil => rfl
  | cons i is ih =>
      rw [List.map_cons, showAll, procShow_slot hs hr, ih fun j hj => h j (List.mem_cons_of_mem i hj),
        if_neg fun hh => h i List.mem_cons_self hh.2]
      simp

theorem showAll_eq_none {vs : List Elem} {v : Elem} (hv : v ∈ vs) (h : procShow env info d v = none) :
    showAll env info d vs = none := by
  induction vs with
  | nil => cases hv
  | cons w vs ih =>
      rw [showAll]
      rcases List.mem_cons.mp hv with rfl | hv
      · rw [h]
        rfl
      · rw [ih hv]
        cases procShow env info d w <;> rfl

/-- Where there are devices, the footer is printed behind the last of them. -/
theorem showAll_used (ho : Orderly env d) (hr : Readable d) {a : Nat} (hi : d.snapDevices i = some a) :
    showAll env info d (elems d) =
      some (header ++ ((List.range (d.highestMinor + 1)).flatMap (slotLine env info d) ++ footer)) := by
  obtain ⟨-, hlow, hhigh, -⟩ := ho.sound.used hi
  obtain ⟨b, hb⟩ := Option.isSome_iff_exists.mp (ho.range_used hi).2
  obtain ⟨dev, e, hdev, he⟩ := readable_entryAt hr hb
  have hat : entryAt env info d d.highestMinor = some e := entryAt_eq_some.mpr ⟨b, dev, hb, hdev, he⟩
  have hlast : procShow env info d (.slot d.highestMinor) = some (slotLine env info d d.highestMinor ++ footer) := by
    rw [procShow_slot ho.sound hr, hat, if_pos ⟨rfl, rfl⟩]
  have htoken : procShow env info d .token = some header := by
    rw [procShow, if_neg (by omega), List.append_nil]
  rw [elems, showAll, htoken, List.range_succ, List.map_append, showAll_append,
    showAll_slots ho.sound hr fun j hj => (List.mem_range.mp hj).ne]
  simp [showAll, hlast]

theorem showAll_none (hnone : ∀ i, d.snapDevices i = none) : showAll env info d (elems d) =
    some (header ++ if d.lowestMinor > d.highestMinor then footer else []) := by
  have hslot : ∀ i, procShow env info d (.slot i) = some [] := by
    intro i
    rw [procShow, hnone i]
  have hslots : ∀ is : List Nat, showAll env info d (is.map .slot) = some [] := by
    intro is
    induction is with
    | nil => rfl
    | cons i is ih =>
        rw [List.map_cons, showAll, hslot, ih]
        rfl
  rw [elems, showAll, hslots, procShow]
  simp

def headLexemes : List Lexeme := [.punct '\x7b', .str "version".toList, .punct ':', .str "0.12.11".toList, .punct ',',
  .str "devices".toList, .punct ':', .punct '[']

theorem listing_lexemes : (listing env info d).lexemes = headLexemes ++
    (elements (((List.range env.maxSnapDevices).filterMap (entryAt env info d)).map Entry.value) ++
      [.punct ']', .punct '\x7d']) := by
  rw [listing, Value.lexemes, members_cons, members, Value.lexemes, Value.lexemes, headLexemes]
  simp

/-- The devices in the order of their minors, whatever slots between them are free. -/
theorem elements_used (ho : Orderly env d) (hr : Readable d) {a : Nat} (hi : d.snapDevices i = some a) :
    elements (((List.range env.maxSnapDevices).filterMap (entryAt env info d)).map Entry.value) =
      (List.range (d.highestMinor + 1)).flatMap (slotLexemes env info d) := by
  obtain ⟨hmax, hle, hge, -⟩ := ho.sound.used hi
  have hhigh : d.highestMinor < env.maxSnapDevices := (ho.range_lt (by omega)).2
  obtain ⟨b, hb⟩ := Option.isSome_iff_exists.mp (ho.range_used hi).1
  obtain ⟨dev, e, hdev, he⟩ := readable_entryAt hr hb
  have hat : entryAt env info d d.lowestMinor = some e := entryAt_eq_some.mpr ⟨b, dev, hb, hdev, he⟩
  have hfree : ∀ j, j < d.lowestMinor ∨ d.highestMinor < j → entryAt env info d j = none := by
    intro j hj
    by_contra hne
    obtain ⟨e, he⟩ := Option.ne_none_iff_exists'.mp hne
    obtain ⟨c, -, hc, -⟩ := entryAt_eq_some.mp he
    obtain ⟨-, hlow, hhigh, -⟩ := ho.sound.used hc
    omega
  have hrange : List.range (d.highestMinor + 1) =
      List.range d.lowestMinor ++ ([d.lowestMinor] ++ (List.range (d.highestMinor - d.lowestMinor)).map (d.lowestMinor + 1 + ·)) := by
    rw [← List.append_assoc, ← List.range_succ, ← List.range_add]
    congr 1
    omega
  have hbelow : (List.range d.lowestMinor).filterMap (entryAt env info d) = [] :=
    List.filterMap_eq_nil_iff.mpr fun j hj => hfree j (.inl (List.mem_range.mp hj))
  have habove : (List.range env.maxSnapDevices).filterMap (entryAt env info d) =
      (List.range (d.highestMinor + 1)).filterMap (entryAt env info d) := by
    have hsplit : env.maxSnapDevices = d.highestMinor + 1 + (env.maxSnapDevices - (d.highestMinor + 1)) := by omega
    rw [hsplit, List.range_add, List.filterMap_append, List.append_right_eq_self, List.filterMap_eq_nil_iff]
    intro j hj
    obtain ⟨m, -, rfl⟩ := List.mem_map.mp hj
    exact hfree _ (.inr (by omega))
  have hnothing : (List.range d.lowestMinor).flatMap (slotLexemes env info d) = [] := by
    refine List.flatMap_eq_nil_iff.mpr fun j hj => ?_
    rw [slotLexemes, hfree j (.inl (List.mem_range.mp hj))]
  have hafter : ∀ j ∈ (List.range (d.highestMinor - d.lowestMinor)).map (d.lowestMinor + 1 + ·), j ≠ d.lowestMinor := by
    intro j hj
    obtain ⟨m, -, rfl⟩ := List.mem_map.mp hj
    omega
  rw [habove, hrange, List.filterMap_append, hbelow, List.nil_append, List.singleton_append, List.filterMap_cons_some hat,
    List.map_cons, elements_cons, ← slots_lexemes hafter, List.flatMap_append, hnothing, List.nil_append, List.flatMap_cons,
    slotLexemes, hat]
  simp

end Table

/-- The text says what the listing is to say. -/
def Listed (env : Env) (info : Nat → Details) (d : DriverState) (ns : List Nat) : Prop :=
  ∃ text pos, seqRead env info d ns 0 = some (text, pos) ∧ procStart d pos = none ∧ Denotes text (listing env info d)

theorem listed_iff {env : Env} {info : Nat → Details} {d : DriverState} {ns : List Nat} (h : d.highestMinor + 2 ≤ ns.sum) :
    Listed env info d ns ↔ ∃ text, showAll env info d (elems d) = some text ∧ Denotes text (listing env info d) := by
  have hend : procStart d (d.highestMinor + 2) = none := by
    rw [procStart_eq, List.getElem?_eq_none (Nat.le_of_eq length_elems)]
  rw [Listed, seqRead_all h]
  cases showAll env info d (elems d) with
  | none => simp
  | some text => simp [hend]

theorem lex_header {rest : List Char} {tail : List Lexeme} :
    lex .between (header ++ rest) = some (headLexemes ++ tail) ↔ lex .between rest = some tail := lex_part_iff rfl

theorem lex_footer : lex .between footer = some [.punct ']', .punct '\x7d'] := rfl

/-- However the read is cut, the listing is right exactly where the table has more than one slot or a device, no device
that was freed or lacks its manager is listed, and no path has characters to be escaped. -/
theorem proc_listing_iff (env : Env) (native : Nat → Nat) (events : List Event) (d : DriverState) (info : Nat → Details)
    (ns : List Nat) (h0 : 0 < env.maxSnapDevices) (hrun : run (step env) (.start env native) events = some d)
    (hns : d.highestMinor + 2 ≤ ns.sum) :
    Listed env info d ns ↔
      (2 ≤ env.maxSnapDevices ∨ ∃ i, (d.snapDevices i).isSome = true) ∧
      ∀ i a, d.snapDevices i = some a → ∃ dev, d.devs a = some dev ∧ (dev.unverified = false → dev.cow.isSome = true) ∧
        Plain (pathText dev.cowPath) ∧ Plain (pathText dev.bdevPath) := by
  have ho : Orderly env d := orderly_run hrun
  rw [listed_iff hns]
  by_cases hnone : ∀ i, d.snapDevices i = none
  · obtain ⟨hlow, hhigh⟩ := ho.range_none hnone
    have hentry : (List.range env.maxSnapDevices).filterMap (entryAt env info d) = [] := by
      refine List.filterMap_eq_nil_iff.mpr fun i _ => ?_
      rw [entryAt, hnone i]
      rfl
    have hempty : ¬ ∃ i, (d.snapDevices i).isSome = true := by
      rintro ⟨i, hi⟩
      rw [hnone i] at hi
      cases hi
    have hpaths : ∀ i a, d.snapDevices i = some a → ∃ dev, d.devs a = some dev ∧
        (dev.unverified = false → dev.cow.isSome = true) ∧ Plain (pathText dev.cowPath) ∧ Plain (pathText dev.bdevPath) := by
      intro i a hi
      rw [hnone i] at hi
      cases hi
    rw [or_iff_left hempty, and_iff_left hpaths, showAll_none hnone, hlow, hhigh]
    simp only [Option.some.injEq, exists_eq_left', Denotes, listing_lexemes, hentry, lex_header]
    by_cases h2 : 2 ≤ env.maxSnapDevices
    · rw [if_pos (by omega)]
      exact iff_of_true lex_footer h2
    · rw [if_neg (by omega)]
      exact iff_of_false (fun h => by cases h) h2
  · obtain ⟨i, hi⟩ := not_forall.mp hnone
    obtain ⟨a, ha⟩ := Option.ne_none_iff_exists'.mp hi
    have hsome : ∃ i, (d.snapDevices i).isSome = true := ⟨i, by rw [ha]; rfl⟩
    rw [and_iff_right (.inr hsome)]
    by_cases hr : Readable d
    · rw [showAll_used ho hr ha]
      simp only [Option.some.injEq, exists_eq_left', Denotes, listing_lexemes, elements_used ho hr ha]
      rw [lex_header, lex_slots_iff, and_iff_left lex_footer]
      constructor
      · intro hfine j c hj
        obtain ⟨dev, e, hdev, he⟩ := readable_entryAt hr hj
        obtain ⟨-, -, hhigh, -⟩ := ho.sound.used hj
        have hat : entryAt env info d j = some e := entryAt_eq_some.mpr ⟨c, dev, hj, hdev, he⟩
        have hpaths := (entryOf_fields he).2.mp (hfine j (List.mem_range.mpr (by omega)) e hat)
        exact ⟨dev, hdev, entryOf_isSome.mp (by rw [he]; rfl), hpaths⟩
      · intro hpaths j _ e he
        obtain ⟨c, dev, hj, hdev, he⟩ := entryAt_eq_some.mp he
        obtain ⟨dev', hdev', -, hplain⟩ := hpaths j c hj
        obtain rfl : dev = dev' := Option.some.inj (hdev.symm.trans hdev')
        exact (entryOf_fields he).2.mpr hplain
    · refine iff_of_false ?_ ?_
      · rintro ⟨text, htext, -⟩
        refine hr fun j c hj => ?_
        obtain ⟨-, -, hhigh, -⟩ := ho.sound.used hj
        have hmem : Elem.slot j ∈ elems d :=
          List.mem_cons_of_mem _ (List.mem_map.mpr ⟨j, List.mem_range.mpr (by omega), rfl⟩)
        have hshow : procShow env info d (.slot j) ≠ none := by
          intro hn
          rw [showAll_eq_none hmem hn] at htext
          cases htext
        rw [procShow, hj] at hshow
        dsimp only at hshow
        cases hdev : d.devs c with
        | none =>
            rw [hdev] at hshow
            exact absurd rfl hshow
        | some dev =>
            refine ⟨dev, rfl, (@entryOf_isSome env dev (info c)).mp ?_⟩
            by_contra hn
            rw [Bool.not_eq_true, Option.isSome_eq_false_iff, Option.isNone_iff_eq_none] at hn
            rw [hdev, Option.bind_eq_bind, Option.bind_some, hn] at hshow
            exact absurd rfl hshow
      · intro hpaths
        refine hr fun j c hj => ?_
        obtain ⟨dev, hdev, hcow, -⟩ := hpaths j c hj
        exact ⟨dev, hdev, hcow⟩

/-- A device with nothing else to say of it. -/
def blank : Details := ⟨false, 0, 0, false, 0, 0, Vector.replicate 16 0, 0, 0⟩

/-- With the first partition tracked, in three rounds the second of which shows nothing. -/
theorem proc_listing_calm : Listed calm (fun _ => blank) (calmState (calmSnap 0) 16) [1, 0, 2] := by
  have h0 : 0 < calm.maxSnapDevices := by
    rw [calm_answers.1]
    exact Nat.two_pos
  have hrun : run (step calm) (.start calm fun _ => 0) [.setupSnap 0 "/dev/sda1" "/cow" 0] =
      some (calmState (calmSnap 0) 16) := by
    rw [run, step_ok calm_setup]
    rfl
  refine (proc_listing_iff calm (fun _ => 0) _ _ _ [1, 0, 2] h0 hrun (by decide)).mpr ⟨.inl ?_, fun i a hi => ?_⟩
  · rw [calm_answers.1]
  · have hzero : i = 0 ∧ a = 0 := by
      by_cases hi0 : i = 0
      · subst hi0
        exact ⟨rfl, (Option.some.inj hi).symm⟩
      · have hnone : (calmState (calmSnap 0) 16).snapDevices i = none := by simp [calmState, hi0]
        rw [hnone] at hi
        cases hi
    obtain ⟨rfl, rfl⟩ := hzero
    have hpaths : Plain "/cow".toList ∧ Plain "/dev/sda1".toList := by decide
    exact ⟨calmSnap 0, rfl, fun _ => rfl, hpaths⟩

/-- With one slot and no device, the listing has no end. -/
theorem one_slot_listing_open : ¬ ∀ (env : Env) (native : Nat → Nat) (events : List Event) (d : DriverState)
    (info : Nat → Details) (ns : List Nat), 0 < env.maxSnapDevices →
    run (step env) (.start env native) events = some d → d.highestMinor + 2 ≤ ns.sum → Listed env info d ns := by
  intro h
  have hlisted := h oneSlot (fun _ => 0) [] _ (fun _ => blank) [2] Nat.one_pos rfl (Nat.le_refl 2)
  obtain ⟨text, htext, hdenotes⟩ := (listed_iff (Nat.le_refl 2)).mp hlisted
  have hheader : showAll oneSlot (fun _ => blank) (.start oneSlot fun _ => 0) (elems (.start oneSlot fun _ => 0)) =
      some (header ++ []) := rfl
  obtain rfl := Option.some.inj (htext.symm.trans hheader)
  rw [Denotes, listing_lexemes, lex_header] at hdenotes
  cases hdenotes

end ElastioSnap.Driver.ProcListing
