/-
# Reading back a saved contact file

Every field `save` writes is free of the separators it is framed with, so the
loader sees exactly the records that were written. What it makes of a record is
decided by one thing only, the range it demands of a position.
-/

import Coreletd.Library.Runs
import Coreletd.Mesh.Contacts

namespace Coreletd.Mesh

open Coreletd.Crypto Coreletd.Library Coreletd.Proto

/-- What every writer of the store guarantees of a contact. -/
structure Contact.Storable (c : Contact) : Prop where
  pubkey_length : c.pubkey.length = kPubKeySize
  path_length : c.outPath.length ≤ kMaxPathSize
  path_unknown : c.pathKnown = false → c.outPath = []

/-- The range of positions the loader accepts, in millionths of a degree. -/
def PositionInRange (latE6 lonE6 : Int32) : Prop :=
  (-90000000 ≤ latE6.toInt ∧ latE6.toInt ≤ 90000000) ∧
    (-180000000 ≤ lonE6.toInt ∧ lonE6.toInt ≤ 180000000)

instance (latE6 lonE6 : Int32) : Decidable (PositionInRange latE6 lonE6) :=
  inferInstanceAs (Decidable (_ ∧ _))

/-- What of a contact a file keeps: the persisted fields, with the name on one
line. -/
def Contact.persisted (c : Contact) : Contact :=
  { pubkey := c.pubkey, name := ContactStore.sanitise c.name, type := c.type, flags := c.flags,
    latE6 := c.latE6, lonE6 := c.lonE6, advTimestamp := c.advTimestamp, lastSeen := c.lastSeen,
    outPath := c.outPath, pathKnown := c.pathKnown }

namespace ContactStore

/-- The store's invariant: storable contacts with distinct keys, within the
limit. -/
structure WellFormed (s : ContactStore) : Prop where
  storable : ∀ c ∈ s.contacts, c.Storable
  distinct : (s.contacts.map (·.pubkey)).Nodup
  bounded : s.contacts.length ≤ s.maxContacts

/-! ## Fields hold no separator -/

theorem not_mem_sanitise {separator : UInt8} (hsep : separator = tab ∨ separator = lf)
    (s : Bytes) : separator ∉ sanitise s := by
  intro hmem
  obtain ⟨c, -, hc⟩ := List.mem_map.mp hmem
  split at hc
  · subst hc
    revert hsep
    decide
  · rename_i hkept
    subst hc
    rcases hsep with rfl | rfl
    · exact hkept (.inl rfl)
    · exact hkept (.inr (.inl rfl))

theorem tab_not_mem_pathField (c : Contact) : tab ∉ pathField c := by
  rw [pathField]
  split
  · split
    · decide
    · exact tab_not_mem_hex _
  · decide

theorem lf_not_mem_pathField (c : Contact) : lf ∉ pathField c := by
  rw [pathField]
  split
  · split
    · decide
    · exact lf_not_mem_hex _
  · decide

theorem tab_not_mem_recordFields (c : Contact) : ∀ field ∈ recordFields c, tab ∉ field := by
  simp only [recordFields, List.forall_mem_cons, List.not_mem_nil, false_implies, implies_true,
    and_true]
  exact ⟨tab_not_mem_hex _, tab_not_mem_decimal _, tab_not_mem_decimal _, tab_not_mem_decimal _,
    tab_not_mem_decimal _, tab_not_mem_decimalInt _, tab_not_mem_decimalInt _,
    tab_not_mem_pathField c, not_mem_sanitise (.inl rfl) _⟩

theorem lf_not_mem_recordFields (c : Contact) : ∀ field ∈ recordFields c, lf ∉ field := by
  simp only [recordFields, List.forall_mem_cons, List.not_mem_nil, false_implies, implies_true,
    and_true]
  exact ⟨lf_not_mem_hex _, lf_not_mem_decimal _, lf_not_mem_decimal _, lf_not_mem_decimal _,
    lf_not_mem_decimal _, lf_not_mem_decimalInt _, lf_not_mem_decimalInt _,
    lf_not_mem_pathField c, not_mem_sanitise (.inr rfl) _⟩

/-- The loader's lines are the lines `save` wrote. -/
theorem lines_fileContent (s : ContactStore) : Text.lines lf s.fileContent = s.fileLines := by
  apply Text.lines_flatMap
  simp only [fileLines, List.forall_mem_cons, List.forall_mem_map]
  refine ⟨by decide +kernel, by decide +kernel, fun c _ => ?_⟩
  exact lf_not_mem_joinFields (lf_not_mem_recordFields c)

/-! ## One record -/

/-- A route field reads back as the route it was written from. -/
theorem parsePath_pathField {c : Contact} (hstorable : c.Storable) :
    parsePath (pathField c) = some (c.pathKnown, c.outPath) := by
  rw [pathField]
  cases hknown : c.pathKnown with
  | false =>
      rw [hstorable.path_unknown hknown]
      decide
  | true =>
      rw [if_pos rfl]
      by_cases hempty : c.outPath = []
      · rw [if_pos hempty, hempty]
        decide
      · have hhex : ∀ text : Bytes, (∃ byte ∈ text, (nibble byte).isSome = false) →
            hex c.outPath ≠ text := by
          rintro text ⟨byte, hbyte, hnot⟩ rfl
          rw [nibble_isSome_of_mem_hex hbyte] at hnot
          exact absurd hnot (by decide)
        rw [if_neg hempty, parsePath, if_neg (hhex _ (by decide)), if_neg (hhex _ (by decide)),
          unhex_hex]
        simp only [hempty, false_or, if_neg (Nat.not_lt.mpr hstorable.path_length)]

theorem parseSigned_int32 (v : Int32) (min max : Int) :
    parseSigned (Text.decimalInt v.toInt) min max =
      if min ≤ v.toInt ∧ v.toInt ≤ max then some v.toInt else none := by
  have hlow := v.le_toInt
  have hhigh := v.toInt_lt
  apply parseSigned_decimalInt <;> norm_num at * <;> omega

/-- The loader's answer to one written record, against contacts with other keys
and room for one more. -/
theorem parseRecord_recordFields {c : Contact} (hstorable : c.Storable) {limit : Nat}
    {loaded : List Contact} (hfresh : ∀ other ∈ loaded, other.pubkey ≠ c.pubkey)
    (hroom : loaded.length < limit) :
    parseRecord limit loaded (joinFields (recordFields c)) =
      if PositionInRange c.latE6 c.lonE6 then .ok c.persisted
      else .error "invalid numeric field" := by
  have hsplit : splitFields (joinFields (recordFields c)) 9 = some (recordFields c) :=
    splitFields_joinFields (recordFields c) (by simp [recordFields])
      (tab_not_mem_recordFields c)
  have hany : loaded.any (·.pubkey = c.pubkey) = false := by
    simpa using hfresh
  rw [parseRecord, hsplit]
  simp only [recordFields, unhex_hex, hstorable.pubkey_length, ne_eq, not_true_eq_false,
    if_false, hany, Bool.false_eq_true, parseUnsigned_byte, parseUnsigned_word,
    parseSigned_int32, parsePath_pathField hstorable, if_neg (Nat.not_le.mpr hroom)]
  by_cases hlat : -90000000 ≤ c.latE6.toInt ∧ c.latE6.toInt ≤ 90000000
  · by_cases hlon : -180000000 ≤ c.lonE6.toInt ∧ c.lonE6.toInt ≤ 180000000
    · rw [if_pos hlat, if_pos hlon, if_pos ⟨hlat, hlon⟩]
      simp [Contact.persisted]
    · have hout : ¬ PositionInRange c.latE6 c.lonE6 := fun hrange => hlon hrange.2
      rw [if_pos hlat, if_neg hlon, if_neg hout]
  · have hout : ¬ PositionInRange c.latE6 c.lonE6 := fun hrange => hlat hrange.1
    rw [if_neg hlat, if_neg hout]

/-- A record line is neither the header, nor empty, nor a comment. -/
theorem loadLine_recordFields {c : Contact} (hstorable : c.Storable) (limit : Nat)
    (acc : Bool × List Contact) :
    loadLine limit acc (joinFields (recordFields c)) =
      match parseRecord limit acc.2 (joinFields (recordFields c)) with
      | .ok c => .ok (acc.1, acc.2 ++ [c])
      | .error why => .error why := by
  have hne : c.pubkey ≠ [] := by
    intro hnil
    have hlen := hstorable.pubkey_length
    rw [hnil] at hlen
    exact absurd hlen (by decide)
  obtain ⟨byte, rest, hpubkey⟩ := List.exists_cons_of_ne_nil hne
  have hhead : (joinFields (recordFields c)).head? = some (kDigits (byte >>> 4)) := by
    rw [recordFields, joinFields_cons _ (by simp), hpubkey]
    rfl
  have hdigit : (nibble (kDigits (byte >>> 4))).isSome = true := by
    rw [nibble_kDigits_of_lt (byte_halves byte).2.1, Option.isSome_some]
  have hcomment : (joinFields (recordFields c)).head? ≠ some 35 := by
    rw [hhead]
    intro hequal
    rw [Option.some.inj hequal] at hdigit
    exact absurd hdigit (by decide)
  have hheader : joinFields (recordFields c) ≠ headerLine := by
    intro hequal
    rw [hequal] at hcomment
    exact hcomment (by decide)
  have hempty : joinFields (recordFields c) ≠ [] := by
    intro hequal
    rw [hequal] at hhead
    exact absurd hhead (by simp)
  rw [loadLine, if_neg hheader]
  exact if_neg (by rintro (h | h) <;> contradiction)

/-! ## The whole file -/

/-- Loading the written records one after the other: all of them when every
position is in range, an error otherwise. -/
theorem foldlM_loadLine (limit : Nat) (done todo : List Contact)
    (hstorable : ∀ c ∈ todo, c.Storable)
    (hdistinct : ((done ++ todo).map (·.pubkey)).Nodup)
    (hroom : (done ++ todo).length ≤ limit) :
    (todo.map fun c => joinFields (recordFields c)).foldlM (loadLine limit)
        (true, done.map Contact.persisted) =
      if ∀ c ∈ todo, PositionInRange c.latE6 c.lonE6 then
        .ok (true, (done ++ todo).map Contact.persisted)
      else .error "invalid numeric field" := by
  induction todo generalizing done with
  | nil => simp; rfl
  | cons c todo ih =>
      have hc := hstorable c List.mem_cons_self
      have hfresh : ∀ other ∈ done.map Contact.persisted, other.pubkey ≠ c.pubkey := by
        intro other hother hequal
        obtain ⟨original, horiginal, rfl⟩ := List.mem_map.mp hother
        rw [List.map_append, List.map_cons] at hdistinct
        exact (List.nodup_append.mp hdistinct).2.2 original.pubkey
          (List.mem_map_of_mem horiginal) c.pubkey List.mem_cons_self hequal
      rw [List.map_cons, List.foldlM_cons, loadLine_recordFields hc,
        parseRecord_recordFields hc hfresh (by simp at hroom ⊢; omega)]
      have happend : done ++ c :: todo = (done ++ [c]) ++ todo := by simp
      by_cases hrange : PositionInRange c.latE6 c.lonE6
      · have hrest := ih (done ++ [c]) (fun other hother =>
          hstorable other (List.mem_cons_of_mem _ hother)) (by rwa [← happend])
          (by rwa [← happend])
        rw [if_pos hrange]
        simp only [List.map_append, List.map_cons, List.map_nil] at hrest ⊢
        simp only [List.forall_mem_cons, hrange, true_and, bind, Except.bind]
        rw [hrest]
        simp
      · rw [if_neg hrange, if_neg fun hall => hrange (hall c List.mem_cons_self)]
        rfl

/-! ## What the loader accepts is well formed -/

theorem of_parseSigned {text : Bytes} {min max z : Int}
    (hparse : parseSigned text min max = some z) :
    min ≤ z ∧ z ≤ max := by
  rw [parseSigned] at hparse
  split at hparse
  · split at hparse
    · rename_i hrange
      obtain rfl := Option.some.inj hparse
      exact hrange.2
    · exact absurd hparse (by simp)
  · exact absurd hparse (by simp)

theorem of_parsePath {field path : Bytes} {known : Bool}
    (hparse : parsePath field = some (known, path)) :
    path.length ≤ kMaxPathSize ∧ (known = false → path = []) := by
  rw [parsePath] at hparse
  split at hparse
  · obtain ⟨rfl, rfl⟩ := Prod.mk.inj (Option.some.inj hparse)
    exact ⟨Nat.zero_le _, fun _ => rfl⟩
  · split at hparse
    · obtain ⟨rfl, rfl⟩ := Prod.mk.inj (Option.some.inj hparse)
      exact ⟨Nat.zero_le _, fun _ => rfl⟩
    · split at hparse
      · split at hparse
        · exact absurd hparse (by simp)
        · rename_i hfits
          obtain ⟨rfl, rfl⟩ := Prod.mk.inj (Option.some.inj hparse)
          exact ⟨by omega, fun hknown => by simp at hknown⟩
      · exact absurd hparse (by simp)

/-- Everything a record has passed once it parses. -/
theorem of_parseRecord {limit : Nat} {loaded : List Contact} {line : Bytes} {c : Contact}
    (hparse : parseRecord limit loaded line = .ok c) :
    c.Storable ∧ PositionInRange c.latE6 c.lonE6 ∧ (∀ other ∈ loaded, other.pubkey ≠ c.pubkey) ∧
      loaded.length < limit := by
  rw [parseRecord] at hparse
  split at hparse
  · split at hparse
    · exact absurd hparse (by simp)
    · split at hparse
      · exact absurd hparse (by simp)
      · rename_i hlen
        split at hparse
        · exact absurd hparse (by simp)
        · rename_i hfresh
          split at hparse
          · rename_i hlat hlon
            split at hparse
            · exact absurd hparse (by simp)
            · rename_i hpath
              split at hparse
              · exact absurd hparse (by simp)
              · rename_i hroom
                obtain rfl := Except.ok.inj hparse
                have hlat' := of_parseSigned hlat
                have hlon' := of_parseSigned hlon
                refine ⟨⟨not_not.mp hlen, (of_parsePath hpath).1, (of_parsePath hpath).2⟩, ?_,
                  by simpa using hfresh, Nat.not_le.mp hroom⟩
                simp only [PositionInRange]
                rw [Int32.toInt_ofInt_of_le (by norm_num; omega) (by norm_num; omega),
                  Int32.toInt_ofInt_of_le (by norm_num; omega) (by norm_num; omega)]
                exact ⟨hlat', hlon'⟩
          · exact absurd hparse (by simp)
  · exact absurd hparse (by simp)

/-- What the loading loop keeps of the contacts read so far. -/
structure LoadedSoFar (limit : Nat) (loaded : List Contact) : Prop where
  storable : ∀ c ∈ loaded, c.Storable
  inRange : ∀ c ∈ loaded, PositionInRange c.latE6 c.lonE6
  distinct : (loaded.map (·.pubkey)).Nodup
  bounded : loaded.length ≤ limit

theorem loadedSoFar_loadLine {limit : Nat} {acc acc' : Bool × List Contact} {line : Bytes}
    (hacc : LoadedSoFar limit acc.2) (hline : loadLine limit acc line = .ok acc') :
    LoadedSoFar limit acc'.2 := by
  rw [loadLine] at hline
  split at hline
  · obtain rfl := Except.ok.inj hline
    exact hacc
  · split at hline
    · obtain rfl := Except.ok.inj hline
      exact hacc
    · split at hline
      · rename_i c hparse
        obtain rfl := Except.ok.inj hline
        obtain ⟨hstorable, hrange, hfresh, hroom⟩ := of_parseRecord hparse
        refine ⟨?_, ?_, ?_, by simpa [Nat.succ_le_iff] using hroom⟩
        · simpa [or_imp, forall_and] using ⟨hacc.storable, hstorable⟩
        · simpa [or_imp, forall_and] using ⟨hacc.inRange, hrange⟩
        · rw [List.map_append, List.map_singleton]
          refine List.nodup_append.mpr ⟨hacc.distinct, by simp, ?_⟩
          intro key hkey other hother hequal
          obtain ⟨existing, hexisting, rfl⟩ := List.mem_map.mp hkey
          exact hfresh existing hexisting (hequal.trans (List.mem_singleton.mp hother))
      · exact absurd hline (by simp)

theorem loadedSoFar_foldlM {limit : Nat} {lines : List Bytes} {acc acc' : Bool × List Contact}
    (hacc : LoadedSoFar limit acc.2) (hlines : lines.foldlM (loadLine limit) acc = .ok acc') :
    LoadedSoFar limit acc'.2 :=
  foldlM_invariant (fun acc => LoadedSoFar limit acc.2)
    (fun _ _ _ _ hsofar hline => loadedSoFar_loadLine hsofar hline) hacc hlines

/-- A load either leaves the store alone or replaces its contacts by records
that passed every check. -/
theorem load_cases (s : ContactStore) (fs : FileSystem) (badAfter : Option Nat) :
    (s.load fs badAfter).2 = s ∨
      ∃ loaded, (s.load fs badAfter).2 = { s with contacts := loaded, dirty := false } ∧
        LoadedSoFar s.maxContacts loaded := by
  rw [load]
  split
  · exact .inl rfl
  · split
    · exact .inl rfl
    · simp only
      split
      · exact .inl rfl
      · rename_i sawHeader loaded hlines
        split
        · exact .inl rfl
        · split
          · exact .inl rfl
          · refine .inr ⟨loaded, rfl, ?_⟩
            exact loadedSoFar_foldlM ⟨by simp, by simp, by simp, by simp⟩ hlines

/-! ## The round trip -/

/-- A fresh store over the same file and limit. -/
def fresh (s : ContactStore) : ContactStore := { path := s.path, maxContacts := s.maxContacts }

/-- What the loader makes of a file a well-formed store wrote. -/
theorem load_fileContent {s : ContactStore} (hwell : s.WellFormed) (hpath : s.path ≠ [])
    {fs : FileSystem} (hfile : fs s.path = some s.fileContent) :
    s.fresh.load fs =
      if ∀ c ∈ s.contacts, PositionInRange c.latE6 c.lonE6 then
        (.loaded, { s.fresh with contacts := s.contacts.map Contact.persisted })
      else (.corrupt, s.fresh) := by
  have hrecords := foldlM_loadLine s.maxContacts [] s.contacts hwell.storable
    (by simpa using hwell.distinct) (by simpa using hwell.bounded)
  have hcolumns : ∀ acc, loadLine s.maxContacts acc columnsLine = .ok acc := by
    intro acc
    rw [loadLine, if_neg (by decide +kernel), if_pos (by decide +kernel)]
  have hheader : ∀ acc, loadLine s.maxContacts acc headerLine = .ok (true, acc.2) :=
    fun acc => if_pos rfl
  have hfresh : s.fresh.path ≠ [] := hpath
  rw [load, if_neg hfresh]
  simp only [fresh, hfile, lines_fileContent, fileLines, List.foldlM_cons, hheader, hcolumns]
  simp only [bind, Except.bind]
  rw [List.map_nil] at hrecords
  rw [hrecords]
  by_cases hrange : ∀ c ∈ s.contacts, PositionInRange c.latE6 c.lonE6
  · rw [if_pos hrange, if_pos hrange]
    simp
  · rw [if_neg hrange, if_neg hrange]

end ContactStore

end Coreletd.Mesh
