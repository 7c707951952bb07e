/-
# The settings file reads back as it was written

The quoting of a value undoes what the reader of the file does to it, on every
byte string without control characters; the section headers put the keys
together again; and the rows read back their own spelling. So a file written from
a map of settings is read as that map.
-/

import Coreletd.Daemon.SettingRows
import Coreletd.Daemon.Settings
import Coreletd.Util.IniLines

namespace Coreletd.Daemon

open Coreletd.Library
open Coreletd.Mesh

/-- Nothing an app may send in a name is in it. -/
def Printable (v : Bytes) : Prop := ∀ byte ∈ v, Config.isControl byte = false

theorem not_isSpace {c : UInt8} (hcontrol : Config.isControl c = false) (hblank : c ≠ 32) :
    Ini.isSpace c = false := by
  have hlow : ¬ c < 0x20 := by
    simp only [Config.isControl, Bool.or_eq_false_iff, decide_eq_false_iff_not] at hcontrol
    exact hcontrol.1
  simp only [Ini.isSpace, Bool.or_eq_false_iff, decide_eq_false_iff_not]
  refine ⟨⟨⟨hblank, ?_⟩, ?_⟩, ?_⟩ <;> rintro rfl <;> exact hlow (by decide)

/-! ## Values -/

theorem quoted_cases (v : Bytes) :
    (quoted v = v ∧ v ≠ [] ∧ v.head? ≠ some 32 ∧ v.getLast? ≠ some 32 ∧
      ∀ c ∈ v, c ≠ Ini.hash ∧ c ≠ Ini.semicolon ∧ c ≠ Ini.quote ∧ c ≠ Ini.apostrophe) ∨
    quoted v = Ini.quote :: v ++ [Ini.quote] := by
  rw [quoted]
  split
  next hplain =>
    left
    simp only [Bool.and_eq_true, Bool.not_eq_true', Bool.or_eq_false_iff, List.any_eq_false,
      decide_eq_true_eq, Bool.or_eq_true, decide_eq_false_iff_not, not_or] at hplain
    obtain ⟨⟨⟨hne, hspecial⟩, hhead⟩, hlast⟩ := hplain
    refine ⟨rfl, hne, hhead.1, hlast.1, fun c hc => ?_⟩
    obtain ⟨⟨⟨hhash, hsemicolon⟩, hquote⟩, hapostrophe⟩ := hspecial c hc
    exact ⟨hhash, hsemicolon, hquote, hapostrophe⟩
  next => exact .inr rfl

/-- What the file's syntax cuts or trims is quoted, and the quotes keep it. -/
theorem cleanValue_quoted {v : Bytes} (hv : Printable v) : Ini.cleanValue (quoted v) = v := by
  rcases quoted_cases v with ⟨hplain, hne, hhead, hlast, hbytes⟩ | hquoted
  · have hbare : Ini.Plain v := by
      intro c hc
      obtain ⟨hhash, hsemicolon, hquote, hapostrophe⟩ := hbytes c hc
      exact ⟨by simp [Ini.isComment, hhash, hsemicolon], hquote, hapostrophe⟩
    rw [hplain, Ini.cleanValue_plain hbare]
    refine Ini.trim_eq_self (fun c hc => ?_) fun c hc => ?_
    · exact not_isSpace (hv c (List.mem_of_mem_head? hc)) fun hblank => hhead (hblank ▸ hc)
    · exact not_isSpace (hv c (List.mem_of_getLast? hc)) fun hblank => hlast (hblank ▸ hc)
  · rw [hquoted]
    exact Ini.cleanValue_between (.inl rfl) v

/-! ## Lines -/

/-- A byte of a section's name or of a key's. -/
def isWord (c : UInt8) : Bool := (97 ≤ c && c ≤ 122) || c = 95

/-- A section's name, or a key's. -/
def Word (s : Bytes) : Prop := s ≠ [] ∧ ∀ c ∈ s, isWord c = true

theorem isWord_apart {c : UInt8} (hc : isWord c = true) :
    Ini.isSpace c = false ∧ c ≠ Ini.hash ∧ c ≠ Ini.semicolon ∧ c ≠ Ini.openBracket ∧
      c ≠ Ini.closeBracket ∧ c ≠ Ini.equals ∧ c ≠ Ini.dot ∧ c ≠ Ini.newline ∧
      Ini.toLower c = c := by
  have hspace : Ini.isSpace c = false := by
    simp only [Ini.isSpace, Bool.or_eq_false_iff, decide_eq_false_iff_not]
    refine ⟨⟨⟨?_, ?_⟩, ?_⟩, ?_⟩ <;> rintro rfl <;> exact absurd hc (by decide)
  have hcapital : ¬ (65 ≤ c ∧ c ≤ 90) := by
    simp only [isWord, Bool.or_eq_true, Bool.and_eq_true, decide_eq_true_eq, UInt8.le_iff_toNat_le,
      ← UInt8.toNat_inj] at hc ⊢
    simp only [UInt8.reduceToNat] at hc ⊢
    omega
  refine ⟨hspace, ?_, ?_, ?_, ?_, ?_, ?_, ?_, if_neg hcapital⟩ <;> rintro rfl <;>
    exact absurd hc (by decide)

theorem Word.trim {s : Bytes} (hs : Word s) : Ini.trim s = s :=
  Ini.trim_eq_self (fun c hc => (isWord_apart (hs.2 c (List.mem_of_mem_head? hc))).1)
    fun c hc => (isWord_apart (hs.2 c (List.mem_of_getLast? hc))).1

theorem Word.lower {s : Bytes} (hs : Word s) : s.map Ini.toLower = s := by
  have hlower : ∀ c ∈ s, Ini.toLower c = c := by
    intro c hc
    obtain ⟨-, -, -, -, -, -, -, -, hsame⟩ := isWord_apart (hs.2 c hc)
    exact hsame
  exact (List.map_congr_left hlower).trans (List.map_id' s)

/-- A line that starts with a word assigns to it. -/
theorem Word.isKey {s : Bytes} (hs : Word s) : Ini.IsKey s := by
  refine ⟨hs.trim.symm ▸ hs.1, fun c hc => ?_, fun hequals => ?_⟩
  · obtain ⟨-, hhash, hsemicolon, hopen, -⟩ :=
      isWord_apart (hs.2 c ((List.dropWhile_sublist _).subset (List.mem_of_mem_head? hc)))
    exact ⟨hhash, hsemicolon, hopen⟩
  · obtain ⟨-, -, -, -, -, hequals', -⟩ := isWord_apart (hs.2 _ hequals)
    exact hequals' rfl

def assignment : Bytes := utf8 " = "

theorem assignment_eq : assignment = [32, Ini.equals, 32] := by decide +kernel

/-- A header line opens its section. -/
theorem parseLine_header (path : Bytes) (lineno : Nat) (parsed : Ini.Parsed) {sec : Bytes}
    (hsec : Word sec) :
    Ini.parseLine path lineno parsed (Ini.openBracket :: sec ++ [Ini.closeBracket]) =
      .ok { parsed with inSection := sec } := by
  have htrim : Ini.trim (Ini.openBracket :: sec ++ [Ini.closeBracket]) =
      Ini.openBracket :: sec ++ [Ini.closeBracket] := by
    refine Ini.trim_eq_self (fun c hc => ?_) fun c hc => ?_
    · obtain rfl := Option.some.inj hc
      decide
    · rw [List.getLast?_concat] at hc
      obtain rfl := Option.some.inj hc
      decide
  have hname : (sec ++ [Ini.closeBracket]).takeWhile (· ≠ Ini.closeBracket) = sec := by
    rw [List.takeWhile_append_of_pos]
    · simp
    · intro c hc
      obtain ⟨-, -, -, -, hclose, -⟩ := isWord_apart (hsec.2 c hc)
      simp [hclose]
  rw [Ini.parseLine, htrim]
  simp only [List.cons_append, List.head?_cons, List.drop_succ_cons, List.drop_zero, hname,
    hsec.trim]
  simp [Ini.openBracket, Ini.hash, Ini.semicolon]

/-- A written entry is read as the key under its section, and the value. -/
theorem parseLine_entry (path : Bytes) (lineno : Nat) (parsed : Ini.Parsed) {name v : Bytes}
    (hname : Word name) (hv : Printable v) :
    Ini.parseLine path lineno parsed (name ++ assignment ++ quoted v) =
      .ok { parsed with ini := parsed.ini.set (Ini.qualify parsed.inSection name) v } := by
  have hline := Ini.parseLine_assignLine hname.isKey path lineno parsed (quoted v)
  rwa [hname.trim, cleanValue_quoted hv] at hline

/-! ## The whole file -/

/-- A key of the settings file: a word, a dot, and a word. -/
def DottedKey (key : Bytes) : Prop :=
  ∃ sec name, Word sec ∧ Word name ∧ key = sec ++ Ini.dot :: name

theorem splitKey_dotted {sec name : Bytes} (hsec : Word sec) :
    splitKey (sec ++ Ini.dot :: name) = (sec, name) := by
  have hspan : ∀ c ∈ sec, decide (c ≠ Ini.dot) = true := by
    intro c hc
    obtain ⟨-, -, -, -, -, -, hdot, -⟩ := isWord_apart (hsec.2 c hc)
    exact decide_eq_true hdot
  rw [splitKey, List.takeWhile_append_of_pos hspan, List.dropWhile_append_of_pos hspan,
    List.takeWhile_cons_of_neg (by simp), List.dropWhile_cons_of_neg (by simp),
    if_pos (List.mem_append_right _ List.mem_cons_self), List.append_nil]
  rfl

theorem DottedKey.lower {key : Bytes} (hkey : DottedKey key) : key.map Ini.toLower = key := by
  obtain ⟨sec, name, hsec, hname, rfl⟩ := hkey
  rw [List.map_append, List.map_cons, hsec.lower, hname.lower]
  rfl

/-- Lines of the file, read one after the other: what the first of them makes of the
state is what the rest start from. -/
theorem parseLines_cons {path line : Bytes} {lines : List Bytes} {lineno : Nat}
    {parsed next : Ini.Parsed} (hline : Ini.parseLine path lineno parsed line = .ok next) :
    Ini.parseLines path lineno parsed (line :: lines) =
      Ini.parseLines path (lineno + 1) next lines := by
  rw [Ini.parseLines, hline]

/-- The written entries are read as those entries, one assigned after the other. -/
theorem parseLines_entryLines {path : Bytes} {entries : List (Bytes × Bytes)}
    (hentries : ∀ entry ∈ entries, DottedKey entry.1 ∧ Printable entry.2) (lineno : Nat)
    (parsed : Ini.Parsed) :
    (Ini.parseLines path lineno parsed (entryLines parsed.inSection entries)).map (·.ini) =
      .ok { entries := parsed.ini.entries.assignAll entries } := by
  induction entries generalizing lineno parsed with
  | nil => rfl
  | cons entry rest ih =>
      obtain ⟨key, value⟩ := entry
      obtain ⟨⟨sec, name, hsec, hname, rfl⟩, hvalue⟩ := hentries _ List.mem_cons_self
      have hrest : ∀ entry ∈ rest, DottedKey entry.1 ∧ Printable entry.2 :=
        fun entry hentry => hentries entry (List.mem_cons_of_mem _ hentry)
      have hlower := DottedKey.lower ⟨sec, name, hsec, hname, rfl⟩
      -- Once the section is open, its entry is read and the rest follows.
      have hopened : ∀ lineno (parsed : Ini.Parsed), parsed.inSection = sec →
          (Ini.parseLines path lineno parsed
            ((name ++ assignment ++ quoted value) :: entryLines sec rest)).map (·.ini) =
          .ok { entries := parsed.ini.entries.assignAll ((sec ++ Ini.dot :: name, value) :: rest) }
          := by
        intro lineno parsed hopen
        have hkey : Ini.qualify parsed.inSection name = sec ++ Ini.dot :: name := by
          rw [hopen, Ini.qualify, if_neg hsec.1, List.append_assoc]
          rfl
        rw [parseLines_cons (parseLine_entry path lineno parsed hname hvalue), hkey, hopen]
        have hafter := ih hrest (lineno + 1)
          { parsed with ini := parsed.ini.set (sec ++ Ini.dot :: name) value }
        rw [hopen] at hafter
        refine hafter.trans ?_
        rw [Ini.set, hlower]
        rfl
      rw [entryLines, splitKey_dotted hsec]
      dsimp only
      split
      · have hblank : Ini.parseLine path lineno parsed [] = .ok parsed := rfl
        rw [List.cons_append, List.cons_append, List.nil_append, parseLines_cons hblank,
          parseLines_cons (parseLine_header path (lineno + 1) parsed hsec)]
        exact hopened _ { parsed with inSection := sec } rfl
      next hsame =>
        rw [List.nil_append]
        exact hopened _ parsed (not_not.mp hsame).symm

theorem parseLines_headerLines (path : Bytes) (parsed : Ini.Parsed) (lines : List Bytes) :
    Ini.parseLines path 1 parsed (headerLines ++ lines) =
      Ini.parseLines path 5 parsed lines := by
  have hcomment : ∀ line ∈ headerLines, ∀ lineno,
      Ini.parseLine path lineno parsed line = .ok parsed := by
    have hhash : ∀ line ∈ headerLines, (Ini.trim line).head? = some Ini.hash := by
      decide +kernel
    intro line hline lineno
    rw [Ini.parseLine, if_pos (.inr (.inl (hhash line hline)))]
  simp only [headerLines, List.forall_mem_cons] at hcomment
  obtain ⟨hfirst, hsecond, hthird, hfourth, -⟩ := hcomment
  simp only [headerLines, List.cons_append, List.nil_append]
  rw [parseLines_cons (hfirst 1), parseLines_cons (hsecond _), parseLines_cons (hthird _),
    parseLines_cons (hfourth _)]

theorem newline_not_mem_quoted {v : Bytes} (hv : Printable v) : Ini.newline ∉ quoted v := by
  have hbytes : Ini.newline ∉ v := fun hmem => by
    have hcontrol := hv _ hmem
    exact absurd hcontrol (by decide)
  rcases quoted_cases v with ⟨hplain, -⟩ | hquoted
  · rwa [hplain]
  · rw [hquoted]
    simp only [List.cons_append, List.mem_cons, List.mem_append, List.not_mem_nil, or_false,
      not_or]
    exact ⟨by decide, hbytes, by decide⟩

theorem newline_not_mem_lines {entries : List (Bytes × Bytes)}
    (hentries : ∀ entry ∈ entries, DottedKey entry.1 ∧ Printable entry.2) (inSection : Bytes) :
    ∀ line ∈ entryLines inSection entries, Ini.newline ∉ line := by
  induction entries generalizing inSection with
  | nil => simp [entryLines]
  | cons entry rest ih =>
      obtain ⟨key, value⟩ := entry
      obtain ⟨⟨sec, name, hsec, hname, rfl⟩, hvalue⟩ := hentries _ List.mem_cons_self
      have hword : ∀ {s : Bytes}, Word s → Ini.newline ∉ s := fun hs hmem => by
        obtain ⟨-, -, -, -, -, -, -, hnewline, -⟩ := isWord_apart (hs.2 _ hmem)
        exact hnewline rfl
      rw [entryLines, splitKey_dotted hsec]
      intro line hline
      rcases List.mem_append.mp hline with hheader | hline
      · split at hheader
        · rcases List.mem_cons.mp hheader with rfl | hheader
          · simp
          · rw [List.mem_singleton.mp hheader]
            simp only [List.cons_append, List.mem_cons, List.mem_append, List.not_mem_nil,
              or_false, not_or]
            exact ⟨by decide, hword hsec, by decide⟩
        · simp at hheader
      · rcases List.mem_cons.mp hline with rfl | hrest
        · rw [show utf8 " = " = [32, Ini.equals, 32] from assignment_eq]
          simp only [List.mem_append, List.mem_cons, List.not_mem_nil, or_false, not_or]
          exact ⟨⟨hword hname, by decide, by decide, by decide⟩, newline_not_mem_quoted hvalue⟩
        · exact ih (fun entry hentry => hentries entry (List.mem_cons_of_mem _ hentry)) sec line
            hrest

/-- **The file reads back.** What is written from a map is read as that map. -/
theorem load_settingsContent {fs : FileSystem} {path : Bytes} {stored : SortedMap Bytes Bytes}
    (hentries : ∀ entry ∈ stored.entries, DottedKey entry.1 ∧ Printable entry.2)
    (hfile : fs path = some (settingsContent stored)) :
    Ini.load fs path = .ok { entries := stored } := by
  have hlines : Text.lines Ini.newline (settingsContent stored) =
      headerLines ++ entryLines [] stored.entries := by
    refine Text.lines_flatMap Ini.newline _ fun line hline => ?_
    rcases List.mem_append.mp hline with hheader | hentry
    · have hplain : ∀ line ∈ headerLines, Ini.newline ∉ line := by decide +kernel
      exact hplain line hheader
    · exact newline_not_mem_lines hentries [] line hentry
  rw [Ini.load, hfile]
  show (Ini.parseLines path 1 {} (Text.lines Ini.newline (settingsContent stored))).map (·.ini) = _
  rw [hlines, parseLines_headerLines]
  have hparsed := @parseLines_entryLines path _ hentries 5 {}
  refine hparsed.trans ?_
  rw [show (({} : Ini.Parsed).ini.entries.assignAll stored.entries) = stored from
    SortedMap.assignAll_entries stored]

end Coreletd.Daemon
