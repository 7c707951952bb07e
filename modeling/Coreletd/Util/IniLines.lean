/-
# Lines of an INI file

What an assignment enters, whatever stands around the sign. A comment behind a bare
value goes without a trace. One behind a quoted value does not: the quotes are looked
for at the two ends of what follows the sign, and then nobody takes them off.
-/

import Coreletd.Util.Ini

namespace Coreletd.Ini

open Coreletd.Library

/-! ## Trimming -/

theorem dropWhile_middle {α : Type} {p : α → Bool} {c : α} (hc : p c = false)
    (front rest : List α) :
    (front ++ c :: rest).dropWhile p = front.dropWhile p ++ c :: rest := by
  induction front with
  | nil => exact List.dropWhile_cons_of_neg (by simp [hc])
  | cons first front ih =>
    rw [List.cons_append, List.dropWhile_cons, List.dropWhile_cons]
    split
    · exact ih
    · rfl

/-- On either side of a byte that stays, the white space goes. -/
theorem trim_middle {c : UInt8} (hc : isSpace c = false) (front rest : Bytes) :
    trim (front ++ c :: rest) = front.dropWhile isSpace ++ c :: rest.rdropWhile isSpace := by
  rw [trim, dropWhile_middle hc, List.rdropWhile, List.reverse_append, List.reverse_cons,
    List.append_assoc, List.singleton_append, dropWhile_middle hc, List.reverse_append,
    List.reverse_cons, List.reverse_reverse, List.append_assoc, List.singleton_append,
    List.rdropWhile]

/-- Of nothing but white space nothing is left. -/
theorem trim_blank {s : Bytes} (hs : ∀ c ∈ s, isSpace c = true) : trim s = [] := by
  rw [trim, List.dropWhile_eq_nil_iff.mpr hs]
  rfl

theorem trim_dropWhile (s : Bytes) : trim (s.dropWhile isSpace) = trim s := by
  rw [trim, trim, List.dropWhile_idempotent]

theorem trim_rdropWhile (s : Bytes) : trim (s.rdropWhile isSpace) = trim s := by
  by_cases hs : ∀ c ∈ s, isSpace c = true
  · rw [List.rdropWhile_eq_nil_iff.mpr hs, trim_blank hs]
    rfl
  · push Not at hs
    obtain ⟨c, hmem, hc⟩ := hs
    obtain ⟨front, rest, rfl⟩ := List.append_of_mem hmem
    have hstays : isSpace c = false := by simpa using hc
    have hdrop : (front ++ c :: rest).rdropWhile isSpace =
        front ++ c :: rest.rdropWhile isSpace := by
      rw [List.rdropWhile, List.reverse_append, List.reverse_cons, List.append_assoc,
        List.singleton_append, dropWhile_middle hstays, List.reverse_append, List.reverse_cons,
        List.reverse_reverse, List.append_assoc, List.singleton_append, List.rdropWhile]
    rw [hdrop, trim_middle hstays, trim_middle hstays, List.rdropWhile_idempotent]

/-- A text whose ends are no white space is left as it is. -/
theorem trim_eq_self {s : Bytes} (hhead : ∀ c, s.head? = some c → isSpace c = false)
    (hlast : ∀ c, s.getLast? = some c → isSpace c = false) : trim s = s := by
  have hfront : s.dropWhile isSpace = s := by
    cases s with
    | nil => rfl
    | cons c rest => rw [List.dropWhile_cons_of_neg (by simp [hhead c rfl])]
  rw [trim, hfront, List.rdropWhile_eq_self_iff]
  intro hne
  simp [hlast _ (List.getLast?_eq_some_getLast hne)]

theorem trim_cons_space (s : Bytes) : trim (32 :: s) = trim s := by
  rw [trim, List.dropWhile_cons_of_pos (by decide), trim]

theorem trim_append_space (s : Bytes) : trim (s ++ [32]) = trim s := by
  rw [← trim_rdropWhile, List.rdropWhile_concat_pos _ _ _ (by decide), trim_rdropWhile]

/-- Trimming is done by `cleanValue` in any case. -/
theorem cleanValue_congr {v w : Bytes} (htrim : trim v = trim w) : cleanValue v = cleanValue w := by
  rw [cleanValue, cleanValue, htrim]

/-! ## Values -/

/-- Nothing in the value is quoted or opens a comment. -/
def Plain (v : Bytes) : Prop :=
  ∀ c ∈ v, isComment c = false ∧ c ≠ quote ∧ c ≠ apostrophe

/-- A byte that stands for quotes. -/
def IsQuote (q : UInt8) : Prop := q = quote ∨ q = apostrophe

theorem IsQuote.apart {q : UInt8} (hq : IsQuote q) : isSpace q = false ∧ isComment q = false := by
  rcases hq with rfl | rfl <;> decide

theorem isComment_apart {c : UInt8} (hc : isComment c = true) :
    isSpace c = false ∧ c ≠ quote ∧ c ≠ apostrophe := by
  simp only [isComment, Bool.or_eq_true, decide_eq_true_eq] at hc
  rcases hc with rfl | rfl <;> decide

/-- What starts with no quote is not quoted. -/
theorem isQuoted_of_head {v : Bytes} (hv : ∀ c, v.head? = some c → c ≠ quote ∧ c ≠ apostrophe) :
    isQuoted v = false := by
  have hfirst : ¬ (v.head? = some quote ∨ v.head? = some apostrophe) := by
    rintro (hquote | happostrophe)
    · exact (hv _ hquote).1 rfl
    · exact (hv _ happostrophe).2 rfl
  simp only [not_or] at hfirst
  simp [isQuoted, hfirst.1, hfirst.2]

theorem cleanValue_plain {v : Bytes} (hv : Plain v) : cleanValue v = trim v := by
  have hplain : Plain (trim v) := fun c hc => hv c <|
    (List.dropWhile_sublist _).subset ((List.rdropWhile_prefix _ _).subset hc)
  have hcomment : (trim v).any isComment = false := by
    rw [List.any_eq_false]
    exact fun c hc => by simp [(hplain c hc).1]
  simp only [cleanValue, hcomment, Bool.false_eq_true, if_false,
    isQuoted_of_head fun c hc => (hplain c (List.mem_of_mem_head? hc)).2]

/-- A comment behind a bare value is cut off. -/
theorem cleanValue_comment {v : Bytes} (hv : Plain v) {c : UInt8} (hc : isComment c = true)
    (text : Bytes) : cleanValue (v ++ c :: text) = trim v := by
  obtain ⟨hspace, hquote, happostrophe⟩ := isComment_apart hc
  have hplain : Plain (v.dropWhile isSpace) := fun byte hbyte => hv byte <|
    (List.dropWhile_sublist _).subset hbyte
  have hopen : isQuoted (v.dropWhile isSpace ++ c :: text.rdropWhile isSpace) = false := by
    refine isQuoted_of_head fun byte hbyte => ?_
    cases hfront : v.dropWhile isSpace with
    | nil =>
      rw [hfront] at hbyte
      obtain rfl := Option.some.inj hbyte
      exact ⟨hquote, happostrophe⟩
    | cons first rest =>
      rw [hfront] at hbyte hplain
      obtain rfl := Option.some.inj hbyte
      exact (hplain first List.mem_cons_self).2
  have hcut : (v.dropWhile isSpace ++ c :: text.rdropWhile isSpace).takeWhile (!isComment ·) =
      v.dropWhile isSpace := by
    rw [List.takeWhile_append_of_pos fun byte hbyte => by simp [(hplain byte hbyte).1],
      List.takeWhile_cons_of_neg (by simp [hc]), List.append_nil]
  have hany : (v.dropWhile isSpace ++ c :: text.rdropWhile isSpace).any isComment = true := by
    rw [List.any_append, List.any_cons, hc, Bool.true_or, Bool.or_true]
  simp only [cleanValue, trim_middle hspace, hopen, hany, hcut, if_true, Bool.false_eq_true,
    if_false, trim_dropWhile]

/-- Between quotes the value is kept. -/
theorem cleanValue_between {q : UInt8} (hq : IsQuote q) (content : Bytes) :
    cleanValue (q :: content ++ [q]) = content := by
  have htrim : trim (q :: content ++ [q]) = q :: content ++ [q] := by
    have hmiddle := trim_middle hq.apart.1 (q :: content) []
    rwa [List.dropWhile_cons_of_neg (by simp [hq.apart.1])] at hmiddle
  have hlast : (q :: (content ++ [q])).getLast? = some q := by
    rw [← List.cons_append, List.getLast?_concat]
  have hquotes : isQuoted (q :: content ++ [q]) = true := by
    rcases hq with rfl | rfl <;> simp [isQuoted, hlast]
  simp only [cleanValue, htrim, hquotes, if_true]
  simp [subview]

/-- With a comment behind it a quote stays in the value, if only the first. -/
theorem quote_mem_cleanValue {q : UInt8} (hq : IsQuote q) {c : UInt8} (hc : isComment c = true)
    (content text : Bytes) :
    q ∈ cleanValue (q :: content ++ [q] ++ 32 :: c :: text) := by
  have htrim : trim (q :: content ++ [q] ++ 32 :: c :: text) =
      q :: (content ++ q :: 32 :: c :: text.rdropWhile isSpace) := by
    have hmiddle := trim_middle (isComment_apart hc).1 (q :: content ++ [q, 32]) text
    rw [List.cons_append, List.dropWhile_cons_of_neg (by simp [hq.apart.1])] at hmiddle
    simpa using hmiddle
  simp only [cleanValue, htrim]
  split
  · -- The last byte is a quote as well: the one that ended the content is in between.
    have hlength : (q :: (content ++ q :: 32 :: c :: text.rdropWhile isSpace)).length - 2 =
        content.length + ((text.rdropWhile isSpace).length + 2) := by
      simp only [List.length_cons, List.length_append]
      omega
    rw [hlength, subview, List.drop_succ_cons, List.drop_zero, List.take_append,
      Nat.add_sub_cancel_left]
    simp
  · split
    · rw [List.takeWhile_cons_of_pos (by simp [hq.apart.2])]
      have hfirst := trim_middle hq.apart.1 []
        ((content ++ q :: 32 :: c :: text.rdropWhile isSpace).takeWhile (!isComment ·))
      rw [List.nil_append] at hfirst
      rw [hfirst]
      exact List.mem_cons_self
    · exact List.mem_cons_self

/-! ## Assignments -/

/-- What stands before the sign names a key, and is no comment and no header. -/
structure IsKey (key : Bytes) : Prop where
  named : trim key ≠ []
  first : ∀ c, (key.dropWhile isSpace).head? = some c →
    c ≠ hash ∧ c ≠ semicolon ∧ c ≠ openBracket
  apart : equals ∉ key

/-- What is before the first sign is the key, and what is behind it the value. -/
theorem parseLine_assign {key : Bytes} (hkey : IsKey key) (path : Bytes) (lineno : Nat)
    (parsed : Parsed) (rest : Bytes) :
    parseLine path lineno parsed (key ++ equals :: rest) =
      .ok { parsed with
        ini := parsed.ini.set (qualify parsed.inSection (trim key)) (cleanValue rest) } := by
  obtain ⟨hnamed, hfirst, hapart⟩ := hkey
  have htrim : trim (key ++ equals :: rest) =
      key.dropWhile isSpace ++ equals :: rest.rdropWhile isSpace :=
    trim_middle (by decide) key rest
  have hspan : ∀ c ∈ key.dropWhile isSpace, decide (c ≠ equals) = true := fun c hc =>
    decide_eq_true fun hequals => hapart (hequals ▸ (List.dropWhile_sublist _).subset hc)
  have hne : key.dropWhile isSpace ≠ [] := fun hnil => hnamed (by rw [trim, hnil]; rfl)
  have hbefore : (key.dropWhile isSpace ++ equals :: rest.rdropWhile isSpace).takeWhile
      (· ≠ equals) = key.dropWhile isSpace := by
    rw [List.takeWhile_append_of_pos hspan, List.takeWhile_cons_of_neg (by simp), List.append_nil]
  have hbehind : ((key.dropWhile isSpace ++ equals :: rest.rdropWhile isSpace).dropWhile
      (· ≠ equals)).drop 1 = rest.rdropWhile isSpace := by
    rw [List.dropWhile_append_of_pos hspan, List.dropWhile_cons_of_neg (by simp)]
    rfl
  rw [parseLine, htrim]
  obtain ⟨first, tail, hcons⟩ := List.exists_cons_of_ne_nil hne
  obtain ⟨hhash, hsemicolon, hopen⟩ := hfirst first (by rw [hcons]; rfl)
  rw [if_neg (by simp [hcons, hhash, hsemicolon]), if_neg (by simp [hcons, hopen]),
    if_pos (by simp)]
  simp only [hbefore, hbehind, trim_dropWhile, if_neg hnamed,
    cleanValue_congr (trim_rdropWhile rest)]

/-- A line `key = v`. -/
def assignLine (key v : Bytes) : Bytes := key ++ utf8 " = " ++ v

/-- A line `key = v # c` or `key = v ; c`. -/
def commented (key v : Bytes) (marker : UInt8) (c : Bytes) : Bytes :=
  assignLine key v ++ 32 :: marker :: 32 :: c

theorem assignLine_eq (key v : Bytes) : assignLine key v = (key ++ [32]) ++ equals :: 32 :: v := by
  have hsign : utf8 " = " = [32, equals, 32] := by decide +kernel
  simp [assignLine, hsign]

theorem commented_eq (key v : Bytes) (marker : UInt8) (c : Bytes) :
    commented key v marker c = assignLine key (v ++ 32 :: marker :: 32 :: c) := by
  simp [commented, assignLine]

/-- An assignment with a space on either side of the sign. -/
theorem parseLine_assignLine {key : Bytes} (hkey : IsKey key) (path : Bytes) (lineno : Nat)
    (parsed : Parsed) (v : Bytes) :
    parseLine path lineno parsed (assignLine key v) =
      .ok { parsed with
        ini := parsed.ini.set (qualify parsed.inSection (trim key)) (cleanValue v) } := by
  have hspaced : IsKey (key ++ [32]) := by
    refine ⟨by rw [trim_append_space]; exact hkey.named, fun c hc => ?_, ?_⟩
    · refine hkey.first c ?_
      have hne : key.dropWhile isSpace ≠ [] := fun hnil => hkey.named (by rw [trim, hnil]; rfl)
      rwa [List.dropWhile_append, if_neg (by simpa using hne),
        List.head?_append_of_ne_nil _ hne] at hc
    · rw [List.mem_append, not_or]
      exact ⟨hkey.apart, by decide⟩
  rw [assignLine_eq, parseLine_assign hspaced, trim_append_space,
    cleanValue_congr (trim_cons_space v)]

/-! ## Files -/

/-- Lines as they stand in a file. -/
def fileOf (lines : List Bytes) : Bytes := lines.flatMap fun line => line ++ [newline]

theorem load_fileOf {lines : List Bytes} (hlines : ∀ line ∈ lines, newline ∉ line) (path : Bytes) :
    load (fun _ => some (fileOf lines)) path = (parseLines path 1 {} lines).map (·.ini) := by
  rw [load]
  dsimp only
  rw [fileOf, Text.lines_flatMap newline lines hlines]

/-- Lines that are accepted leave the rest to be read from where they lead. -/
theorem parseLines_append {path : Bytes} {lineno : Nat} {parsed reached : Parsed}
    {before : List Bytes} (hbefore : parseLines path lineno parsed before = .ok reached)
    (after : List Bytes) :
    parseLines path lineno parsed (before ++ after) =
      parseLines path (lineno + before.length) reached after := by
  induction before generalizing lineno parsed with
  | nil =>
    obtain rfl := Except.ok.inj hbefore
    rfl
  | cons line before ih =>
    rw [parseLines] at hbefore
    rw [List.cons_append, parseLines]
    cases hline : parseLine path lineno parsed line with
    | error why => rw [hline] at hbefore; exact absurd hbefore (by simp)
    | ok next =>
      rw [hline] at hbefore
      dsimp only at hbefore ⊢
      rw [ih hbefore, List.length_cons, Nat.add_right_comm, Nat.add_assoc]

/-! ## Comments -/

/-- How a value is written: bare, or between two quotes it does not contain. -/
inductive Spells : Bytes → Bytes → Prop
  | plain {v : Bytes} (hv : Plain v) : Spells v (trim v)
  | quoted {q : UInt8} (hq : IsQuote q) {content : Bytes} (hcontent : q ∉ content) :
      Spells (q :: content ++ [q]) content

theorem Spells.cleanValue {v content : Bytes} (hv : Spells v content) : cleanValue v = content := by
  cases hv with
  | plain hv => exact cleanValue_plain hv
  | quoted hq _ => exact cleanValue_between hq content

/-- The comment is not seen where the value is bare, and only there. -/
theorem Spells.cleanValue_comment_iff {v content : Bytes} (hv : Spells v content) {marker : UInt8}
    (hmarker : isComment marker = true) (c : Bytes) :
    Ini.cleanValue (v ++ 32 :: marker :: 32 :: c) = content ↔ Plain v := by
  cases hv with
  | plain hv =>
    have hspaced : Plain (v ++ [32]) := fun byte hbyte =>
      (List.mem_append.mp hbyte).elim (hv byte) fun hblank => by
        rw [List.mem_singleton.mp hblank]
        decide
    have hcut := cleanValue_comment hspaced hmarker (32 :: c)
    rw [List.append_assoc, trim_append_space] at hcut
    exact ⟨fun _ => hv, fun _ => hcut⟩
  | quoted hq hcontent =>
    refine ⟨fun hsame => ?_, fun hplain => ?_⟩
    · exact absurd (hsame ▸ quote_mem_cleanValue hq hmarker content (32 :: c)) hcontent
    · obtain ⟨-, hquote, happostrophe⟩ := hplain _ List.mem_cons_self
      exact absurd hq (not_or.mpr ⟨hquote, happostrophe⟩)

/-- What the file `before` followed by one line holds: the line's entry, over what was
there before it. -/
def Enters (path : Bytes) (before : List Bytes) (reached : Parsed) (line key content : Bytes) :
    Prop :=
  load (fun _ => some (fileOf (before ++ [line]))) path =
    .ok (reached.ini.set (qualify reached.inSection (trim key)) content)

/-- The line and its two commented forms enter the same. -/
structure CommentUnseen (path : Bytes) (before : List Bytes) (reached : Parsed)
    (key v content c : Bytes) : Prop where
  bare : Enters path before reached (assignLine key v) key content
  hashed : Enters path before reached (commented key v hash c) key content
  semicoloned : Enters path before reached (commented key v semicolon c) key content

theorem enters_assignLine_iff {path : Bytes} {before : List Bytes} {reached : Parsed}
    {key v : Bytes} (hbefore : parseLines path 1 {} before = .ok reached)
    (hlines : ∀ line ∈ before, newline ∉ line) (hkey : IsKey key)
    (hline : newline ∉ assignLine key v) (content : Bytes) :
    Enters path before reached (assignLine key v) key content ↔ cleanValue v = content := by
  have hwhole : ∀ line ∈ before ++ [assignLine key v], newline ∉ line := by
    intro line hmem
    rcases List.mem_append.mp hmem with hearlier | hlast
    · exact hlines line hearlier
    · rwa [List.mem_singleton.mp hlast]
  rw [Enters, load_fileOf hwhole, parseLines_append hbefore, parseLines,
    parseLine_assignLine hkey]
  refine ⟨fun hsame => ?_, fun hvalue => by rw [hvalue]; rfl⟩
  have hfind := congrArg (fun ini : Ini => ini.entries.find
    ((qualify reached.inSection (trim key)).map toLower)) (Except.ok.inj hsame)
  simp only [set, SortedMap.find_assign_self] at hfind
  exact Option.some.inj hfind

/-- **A comment leaves a bare value as it is, and a quoted one never.** -/
theorem commentUnseen_iff {path : Bytes} {before : List Bytes} {reached : Parsed}
    {key v content c : Bytes} (hbefore : parseLines path 1 {} before = .ok reached)
    (hlines : ∀ line ∈ before, newline ∉ line) (hkey : IsKey key)
    (hline : newline ∉ assignLine key v) (hv : Spells v content) (hc : newline ∉ c) :
    CommentUnseen path before reached key v content c ↔ Plain v := by
  have hbroken : ∀ marker, isComment marker = true →
      newline ∉ assignLine key (v ++ 32 :: marker :: 32 :: c) := by
    intro marker hmarker
    rw [← commented_eq, commented, List.mem_append, not_or]
    refine ⟨hline, ?_⟩
    have hapart : newline ≠ marker := by
      rintro rfl
      exact absurd hmarker (by decide)
    simp only [List.mem_cons, not_or]
    exact ⟨by decide, hapart, by decide, hc⟩
  have hcommented : ∀ marker, isComment marker = true →
      (Enters path before reached (commented key v marker c) key content ↔ Plain v) := by
    intro marker hmarker
    rw [commented_eq, enters_assignLine_iff hbefore hlines hkey (hbroken marker hmarker)]
    exact hv.cleanValue_comment_iff hmarker c
  constructor
  · exact fun hunseen => (hcommented hash (by decide)).mp hunseen.hashed
  · intro hplain
    exact ⟨(enters_assignLine_iff hbefore hlines hkey hline content).mpr hv.cleanValue,
      (hcommented hash (by decide)).mpr hplain, (hcommented semicolon (by decide)).mpr hplain⟩

/-- `name = camp # north` under a header. -/
theorem commentUnseen_bare :
    CommentUnseen [] [[91, 110, 93]] { inSection := [110] } (utf8 "name") (utf8 "camp") (utf8 "camp")
      (utf8 "north") := by
  have hname : IsKey (utf8 "name") := ⟨by decide +kernel, by decide +kernel, by decide +kernel⟩
  have hplain : Plain (utf8 "camp") := by
    rw [Plain]
    decide +kernel
  have hspells : Spells (utf8 "camp") (utf8 "camp") := by
    have htrim : trim (utf8 "camp") = utf8 "camp" := by decide +kernel
    exact htrim ▸ Spells.plain hplain
  exact (commentUnseen_iff rfl (by decide) hname (by decide +kernel) hspells
    (by decide +kernel)).mpr hplain

/-- The value of `password = "se#cret" # admin` is what is before the first sign of a comment. -/
theorem commentSeen_password :
    Spells (quote :: utf8 "se#cret" ++ [quote]) (utf8 "se#cret") ∧ IsKey (utf8 "password") ∧
      ¬ CommentUnseen [] [] {} (utf8 "password") (quote :: utf8 "se#cret" ++ [quote])
        (utf8 "se#cret") (utf8 "admin") := by
  have hkey : IsKey (utf8 "password") :=
    ⟨by decide +kernel, by decide +kernel, by decide +kernel⟩
  refine ⟨.quoted (.inl rfl) (by decide +kernel), hkey, fun hunseen => ?_⟩
  have hhashed := hunseen.hashed
  rw [commented_eq, enters_assignLine_iff rfl (by decide) hkey (by decide +kernel)] at hhashed
  exact absurd hhashed (by decide +kernel)

end Coreletd.Ini
