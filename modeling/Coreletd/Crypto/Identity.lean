/-
# The node's key and its file

A key is the clamped scalar and the nonce prefix; its public half is computed, never
taken over. The file holds it in hex, or raw. The loader trims white space off the end
before it knows which, so a raw key is read back only if it does not look like text.
-/

import Coreletd.Crypto.Crypto
import Coreletd.Util.Persist
import Mathlib.Data.List.DropRight

namespace Coreletd.Crypto

open Coreletd.Library

def kPrivKeySize : Nat := 64

/-- `crypto_scalarmult_ed25519_base_noclamp`: the public key of a scalar, if it has a
valid one. -/
abbrev ScalarMult : Type := Bytes → Option { pub : Bytes // pub.length = kPubKeySize }

/-- Clamp the first 32 bytes. -/
def clampScalar (key : Bytes) : Bytes :=
  (key.modify 0 (· &&& 248)).modify 31 fun byte => (byte &&& 127) ||| 64

/-- How the key file is met: why it cannot be opened, and whether reading it fails. -/
structure ReadIo where
  openError : Option Bytes := none
  readError : Bool := false

namespace LocalIdentity

variable (mult : ScalarMult)

/-- The first draw with a public key whose node id is not reserved. `draws` are the
expanded seeds as the loop comes to them. -/
def generate : List Bytes → Option LocalIdentity
  | [] => none
  | expanded :: draws =>
      let priv := clampScalar expanded
      match mult (priv.take 32) with
      | none => generate draws
      | some ⟨pub, pub_length⟩ =>
          if pub.headD 0 ≠ 0x00 ∧ pub.headD 0 ≠ 0xff then some { pub, priv, pub_length }
          else generate draws

/-- The identity of an expanded key, checked against the public key it came with. -/
def derive (priv claimedPub : Bytes) : Option LocalIdentity :=
  let priv := clampScalar priv
  match mult (priv.take 32) with
  | none => none
  | some ⟨pub, pub_length⟩ =>
      if claimedPub ≠ [] ∧ claimedPub ≠ pub then none else some { pub, priv, pub_length }

/-- `priv(64)`, or `pub(32) || priv(64)`. -/
def fromBytes (key : Bytes) : Option LocalIdentity :=
  if key.length = kPrivKeySize then derive mult key []
  else if key.length = kPubKeySize + kPrivKeySize then
    derive mult (key.drop kPubKeySize) (key.take kPubKeySize)
  else none

/-- What is trimmed off the end of a key file. -/
def isTrailing (c : UInt8) : Bool := c = 10 || c = 13 || c = 32

/-- Text if all of it is hex, else the raw key. -/
def readKey (raw : Bytes) : Option LocalIdentity :=
  let raw := raw.rdropWhile isTrailing
  match unhex raw with
  | some bin => fromBytes mult bin
  | none => fromBytes mult raw

/-- The identity and the error. Neither, when the file is missing. -/
def load (io : ReadIo) (fs : FileSystem) (path : Bytes) : Option LocalIdentity × Bytes :=
  match io.openError with
  | some why => (none, Text.ascii "cannot open " ++ path ++ Text.ascii ": " ++ why)
  | none =>
      match fs path with
      | none => (none, [])
      | some raw =>
          if io.readError then (none, Text.ascii "cannot read " ++ path)
          else
            match readKey mult raw with
            | some id => (some id, [])
            | none => (none, Text.ascii "invalid identity file " ++ path)

def fileContent (id : LocalIdentity) : Bytes := hex id.priv ++ [10]

def save (io : SaveIo) (id : LocalIdentity) (fs : FileSystem) (path : Bytes) : Bool × FileSystem :=
  let tmp := path ++ tmpSuffix
  if !io.openStream then (false, fs)
  else if !io.flush || !io.close then (false, fs.set tmp (some (id.fileContent.take io.written)))
  else
    match durableReplace io.replace (fs.set tmp (some id.fileContent)) tmp path with
    | (true, fs) => (true, fs)
    | (false, fs) => (false, fs.set tmp none)

variable {mult}

/-! ## Clamping -/

theorem length_clampScalar (key : Bytes) : (clampScalar key).length = key.length := by
  simp [clampScalar]

/-- Clamping a clamped scalar is a no-op. -/
theorem clampScalar_idem (key : Bytes) : clampScalar (clampScalar key) = clampScalar key := by
  have hlow : ((· &&& 248) ∘ (· &&& 248) : UInt8 → UInt8) = (· &&& 248) :=
    funext (forall_byte (by decide +kernel))
  have hhigh : ((fun byte => (byte &&& 127) ||| 64) ∘ fun byte => (byte &&& 127) ||| 64 :
      UInt8 → UInt8) = fun byte => (byte &&& 127) ||| 64 :=
    funext (forall_byte (by decide +kernel))
  rw [clampScalar, clampScalar,
    List.modify_modify_ne _ _ (key.modify 0 _) (by decide : (31 : Nat) ≠ 0),
    List.modify_modify_eq, hhigh, List.modify_modify_eq, hlow]

/-- Beyond the scalar nothing is clamped. -/
theorem drop_clampScalar (key : Bytes) : (clampScalar key).drop 32 = key.drop 32 := by
  rw [clampScalar, List.drop_modify_of_lt _ _ _ _ (by decide),
    List.drop_modify_of_lt _ _ _ _ (by decide)]

/-! ## Made identities -/

/-- The two ways an identity comes about. -/
inductive Made (mult : ScalarMult) : LocalIdentity → Prop
  | generated {draws : List Bytes} (hdraws : ∀ expanded ∈ draws, expanded.length = kPrivKeySize)
      {id : LocalIdentity} (hid : generate mult draws = some id) : Made mult id
  | imported {key : Bytes} {id : LocalIdentity} (hid : fromBytes mult key = some id) : Made mult id

/-- A whole key, clamped, with its own public half. -/
structure Sound (mult : ScalarMult) (id : LocalIdentity) : Prop where
  length : id.priv.length = kPrivKeySize
  clamped : clampScalar id.priv = id.priv
  pub : mult (id.priv.take 32) = some ⟨id.pub, id.pub_length⟩

theorem sound_derive {priv claimedPub : Bytes} {id : LocalIdentity}
    (hlength : priv.length = kPrivKeySize) (hid : derive mult priv claimedPub = some id) :
    id.Sound mult ∧ id.priv = clampScalar priv := by
  simp only [derive] at hid
  split at hid
  next => cases hid
  next pub pub_length hpub =>
    split at hid
    · cases hid
    · obtain rfl := Option.some.inj hid
      exact ⟨⟨(length_clampScalar priv).trans hlength, clampScalar_idem priv, hpub⟩, rfl⟩

theorem sound_fromBytes {key : Bytes} {id : LocalIdentity} (hid : fromBytes mult key = some id) :
    id.Sound mult := by
  rw [fromBytes] at hid
  split at hid
  next hlength => exact (sound_derive hlength hid).1
  next =>
    split at hid
    next hlength => exact (sound_derive (by rw [List.length_drop, hlength]; rfl) hid).1
    next => cases hid

theorem sound_generate {draws : List Bytes}
    (hdraws : ∀ expanded ∈ draws, expanded.length = kPrivKeySize) {id : LocalIdentity}
    (hid : generate mult draws = some id) : id.Sound mult := by
  induction draws with
  | nil => cases hid
  | cons expanded draws ih =>
    obtain ⟨hfirst, hrest⟩ := List.forall_mem_cons.mp hdraws
    simp only [generate] at hid
    split at hid
    next => exact ih hrest hid
    next pub pub_length hpub =>
      split at hid
      · obtain rfl := Option.some.inj hid
        exact ⟨(length_clampScalar expanded).trans hfirst, clampScalar_idem expanded, hpub⟩
      · exact ih hrest hid

theorem Made.sound {id : LocalIdentity} (hid : Made mult id) : id.Sound mult := by
  cases hid with
  | generated hdraws hid => exact sound_generate hdraws hid
  | imported hid => exact sound_fromBytes hid

/-- The private key of an identity is a key of it. -/
theorem Sound.fromBytes {id : LocalIdentity} (hid : id.Sound mult) :
    fromBytes mult id.priv = some id := by
  rw [LocalIdentity.fromBytes, if_pos hid.length]
  simp only [derive, hid.clamped, hid.pub, ne_eq, not_true_eq_false, false_and, if_false]

/-! ## Reading a key file -/

theorem load_eq {fs : FileSystem} {path raw : Bytes} (hfile : fs path = some raw)
    {id : LocalIdentity} (hread : readKey mult raw = some id) :
    load mult {} fs path = (some id, []) := by
  simp only [load, hfile, hread, Bool.false_eq_true, if_false]

theorem readKey_of_load {fs : FileSystem} {path raw error : Bytes} (hfile : fs path = some raw)
    {id : LocalIdentity} (hload : load mult {} fs path = (some id, error)) :
    readKey mult raw = some id := by
  simp only [load, hfile, Bool.false_eq_true, if_false] at hload
  split at hload
  next hread =>
    obtain ⟨hsame, -⟩ := Prod.mk.inj hload
    rw [hread, Option.some.inj hsame]
  next => cases (Prod.mk.inj hload).1

theorem not_isTrailing_of_digit {c : UInt8} (hc : (nibble c).isSome = true) :
    isTrailing c = false := by
  simp only [isTrailing, Bool.or_eq_false_iff, decide_eq_false_iff_not]
  refine ⟨⟨?_, ?_⟩, ?_⟩ <;> rintro rfl <;> exact absurd hc (by decide)

theorem rdropWhile_append_blank {text blank : Bytes} (hblank : ∀ c ∈ blank, isTrailing c = true) :
    (text ++ blank).rdropWhile isTrailing = text.rdropWhile isTrailing := by
  rw [List.rdropWhile, List.reverse_append, List.dropWhile_append_of_pos, List.rdropWhile]
  exact fun c hc => hblank c (List.mem_reverse.mp hc)

/-- Hex is read as what it spells, whatever white space follows. -/
theorem readKey_hexadecimal {text blank key : Bytes} (htext : Hexadecimal text key)
    (hblank : ∀ c ∈ blank, isTrailing c = true) :
    readKey mult (text ++ blank) = fromBytes mult key := by
  have hkept : text.rdropWhile isTrailing = text := by
    rw [List.rdropWhile_eq_self_iff]
    intro hne
    simp [not_isTrailing_of_digit (nibble_of_hexadecimal htext _ (List.getLast_mem hne))]
  rw [readKey, rdropWhile_append_blank hblank, hkept]
  simp only [unhex_of_hexadecimal htext]

theorem Sound.load_saved {id : LocalIdentity} (hid : id.Sound mult) {io : SaveIo}
    {fs fs' : FileSystem} {path : Bytes} (hsaved : id.save io fs path = (true, fs')) :
    load mult {} fs' path = (some id, []) := by
  have hinstalled : fs' path = some id.fileContent := by
    simp only [save] at hsaved
    split at hsaved
    · cases hsaved
    · split at hsaved
      · cases hsaved
      · split at hsaved
        next hreplaced =>
          obtain ⟨-, rfl⟩ := Prod.mk.inj hsaved
          exact durableReplace_installs (FileSystem.set_same _ _ _) hreplaced
        next => cases hsaved
  refine load_eq hinstalled ?_
  have hblank : ∀ c ∈ ([10] : Bytes), isTrailing c = true := List.forall_mem_singleton.mpr rfl
  rw [fileContent, readKey_hexadecimal (hexadecimal_hex id.priv) hblank, hid.fromBytes]

/-- A key that cannot be taken for text: it does not end in white space, and some byte
of it is no hex digit. -/
def ReadsRaw (key : Bytes) : Prop :=
  (∀ c, key.getLast? = some c → isTrailing c = false) ∧ ∃ c ∈ key, nibble c = none

theorem length_of_fromBytes {key : Bytes} {id : LocalIdentity}
    (hid : fromBytes mult key = some id) :
    key.length = kPrivKeySize ∨ key.length = kPubKeySize + kPrivKeySize := by
  rw [fromBytes] at hid
  split at hid
  next hlength => exact .inl hlength
  next =>
    split at hid
    next hlength => exact .inr hlength
    next => cases hid

/-- The nonce prefix of an imported key is the end of what was imported. -/
theorem nonce_of_fromBytes {key : Bytes} {id : LocalIdentity} (hid : fromBytes mult key = some id) :
    id.priv.drop 32 = key.drop (key.length - 32) := by
  rw [fromBytes] at hid
  split at hid
  next hlength => rw [(sound_derive hlength hid).2, drop_clampScalar, hlength]; rfl
  next =>
    split at hid
    next hlength =>
      have hpriv := (sound_derive (by rw [List.length_drop, hlength]; rfl) hid).2
      rw [hpriv, drop_clampScalar, List.drop_drop, hlength]
      rfl
    next => cases hid

theorem rdropWhile_of_last {key : Bytes}
    (hlast : ∀ c, key.getLast? = some c → isTrailing c = false) :
    key.rdropWhile isTrailing = key := by
  rw [List.rdropWhile_eq_self_iff]
  intro hne
  simp [hlast _ (List.getLast?_eq_some_getLast hne)]

/-- A key that ends in white space is read short. What is left may have the length of
a key, but its end is then the nonce prefix, and that was white space. -/
theorem not_readKey_of_trailing {key : Bytes} {id : LocalIdentity}
    (hid : fromBytes mult key = some id) {c : UInt8} (hc : key.getLast? = some c)
    (htrailing : isTrailing c = true) : readKey mult key ≠ some id := by
  intro hread
  have hkey := length_of_fromBytes hid
  have hsplit : key.rdropWhile isTrailing ++ key.rtakeWhile isTrailing = key := by
    rw [List.rdropWhile, List.rtakeWhile, ← List.reverse_append, List.takeWhile_append_dropWhile,
      List.reverse_reverse]
  have hblank : ∀ byte ∈ key.rtakeWhile isTrailing, isTrailing byte = true :=
    fun byte hbyte => List.mem_rtakeWhile_imp hbyte
  have hcut : key.rtakeWhile isTrailing ≠ [] := by
    intro hnil
    have hne : key ≠ [] := by
      rintro rfl
      cases hc
    rw [List.rtakeWhile_eq_nil_iff] at hnil
    refine hnil hne ?_
    rw [List.getLast?_eq_some_getLast hne] at hc
    rw [Option.some.inj hc, htrailing]
  have hshort := congrArg List.length hsplit
  rw [List.length_append] at hshort
  have hpos := List.length_pos_of_ne_nil hcut
  simp only [readKey] at hread
  simp only [kPubKeySize, kPrivKeySize] at hkey
  split at hread
  next bin hbin =>
    have hlength := length_of_fromBytes hread
    have htwice := (unhex_eq_some hbin).1
    simp only [kPubKeySize, kPrivKeySize] at hlength
    omega
  next =>
    have hlength := length_of_fromBytes hread
    simp only [kPubKeySize, kPrivKeySize] at hlength
    have hnonce := nonce_of_fromBytes hread
    rw [nonce_of_fromBytes hid] at hnonce
    have hleft : (key.rdropWhile isTrailing).length = key.length - 32 := by omega
    have hend : key.drop (key.rdropWhile isTrailing).length = key.rtakeWhile isTrailing :=
      (congrArg (List.drop _) hsplit).symm.trans List.drop_left
    rw [← hleft, hend] at hnonce
    have hne : key.rdropWhile isTrailing ≠ [] := List.ne_nil_of_length_pos (by omega)
    have hlast := List.rdropWhile_last_not isTrailing key hne
    rw [hnonce] at hblank hcut
    refine hlast (hblank _ ?_)
    rw [← List.getLast_drop hcut]
    exact List.getLast_mem hcut

/-- The raw key is read as itself if it cannot be taken for text, and else not as the
same identity. -/
theorem readKey_raw_iff {key : Bytes} {id : LocalIdentity} (hid : fromBytes mult key = some id) :
    readKey mult key = some id ↔ ReadsRaw key := by
  have hkey := length_of_fromBytes hid
  simp only [kPubKeySize, kPrivKeySize] at hkey
  constructor
  · intro hread
    have hlast : ∀ c, key.getLast? = some c → isTrailing c = false := by
      intro c hc
      by_contra htrailing
      exact not_readKey_of_trailing hid hc (by simpa using htrailing) hread
    refine ⟨hlast, ?_⟩
    by_contra hdigits
    push Not at hdigits
    have hsome := unhex_isSome (by omega) fun c hc => Option.isSome_iff_ne_none.mpr (hdigits c hc)
    obtain ⟨bin, hbin⟩ := Option.isSome_iff_exists.mp hsome
    rw [readKey, rdropWhile_of_last hlast] at hread
    simp only [hbin] at hread
    have hlength := length_of_fromBytes hread
    have htwice := (unhex_eq_some hbin).1
    simp only [kPubKeySize, kPrivKeySize] at hlength
    omega
  · rintro ⟨hlast, c, hmem, hforeign⟩
    have hraw : unhex key = none := by
      by_contra hsome
      obtain ⟨bin, hbin⟩ := Option.ne_none_iff_exists'.mp hsome
      have hdigit := (unhex_eq_some hbin).2 c hmem
      rw [hforeign] at hdigit
      cases hdigit
    rw [readKey, rdropWhile_of_last hlast]
    simp only [hraw, hid]

/-! ## The documented files -/

/-- A file with this content loads as the identity. -/
def Loads (mult : ScalarMult) (content : Bytes) (id : LocalIdentity) : Prop :=
  ∀ (fs : FileSystem) (path : Bytes), fs path = some content → load mult {} fs path = (some id, [])

theorem loads_iff {content : Bytes} {id : LocalIdentity} :
    Loads mult content id ↔ readKey mult content = some id := by
  refine ⟨fun hloads => ?_, fun hread _ _ hfile => load_eq hfile hread⟩
  let fs : FileSystem := fun _ => some content
  have hfile : fs [] = some content := rfl
  exact readKey_of_load hfile (hloads fs [] hfile)

/-- Every file the header promises to read, for a key and the identity it holds. -/
structure Documented (mult : ScalarMult) (key : Bytes) (id : LocalIdentity) : Prop where
  hexadecimal : ∀ text blank, Hexadecimal text key → (∀ c ∈ blank, c = 32 ∨ c = 13 ∨ c = 10) →
    Loads mult (text ++ blank) id
  raw : Loads mult key id
  saved : ∀ made, Made mult made → ∀ (io : SaveIo) (fs fs' : FileSystem) (path : Bytes),
    made.save io fs path = (true, fs') → load mult {} fs' path = (some made, [])

/-- **An identity file loads as the key it holds**, unless it is a raw one that passes
for text. -/
theorem documented_iff {key : Bytes} {id : LocalIdentity} (hid : fromBytes mult key = some id) :
    Documented mult key id ↔ ReadsRaw key := by
  rw [← readKey_raw_iff hid, ← loads_iff]
  refine ⟨Documented.raw, fun hraw => ⟨fun text blank htext hblank => ?_, hraw, ?_⟩⟩
  · have htrailing : ∀ c ∈ blank, isTrailing c = true := by
      intro c hc
      rcases hblank c hc with rfl | rfl | rfl <;> rfl
    rw [loads_iff, readKey_hexadecimal htext htrailing, hid]
  · exact fun made hmade io fs fs' path hsaved => hmade.sound.load_saved hsaved

/-- The key of the test vectors. -/
def vectorKey : Bytes :=
  [0x3d, 0x94, 0xee, 0xa4, 0x9c, 0x58, 0x0a, 0xef, 0x81, 0x69, 0x35, 0x76, 0x2b, 0xe0, 0x49, 0x55,
   0x9d, 0x6d, 0x14, 0x40, 0xde, 0xde, 0x12, 0xe6, 0xa1, 0x25, 0xf1, 0x84, 0x1f, 0xff, 0x8e, 0x6f,
   0xa9, 0xd7, 0x18, 0x62, 0xa3, 0xe5, 0x74, 0x6b, 0x57, 0x1b, 0xe3, 0xd1, 0x87, 0xb0, 0x04, 0x10,
   0x46, 0xf5, 0x2e, 0xbd, 0x85, 0x0c, 0x7c, 0xbd, 0x5f, 0xde, 0x8e, 0xe3, 0x84, 0x73, 0xb6, 0x49]

def vectorPub : Bytes :=
  [0x03, 0xa1, 0x07, 0xbf, 0xf3, 0xce, 0x10, 0xbe, 0x1d, 0x70, 0xdd, 0x18, 0xe7, 0x4b, 0xc0, 0x99,
   0x67, 0xe4, 0xd6, 0x30, 0x9b, 0xa5, 0x0d, 0x5f, 0x1d, 0xdc, 0x86, 0x64, 0x12, 0x55, 0x31, 0xb8]

/-- Scalar multiplication, as far as the vectors tell: of their scalar. -/
def vectorMult : ScalarMult := fun scalar =>
  if scalar = (clampScalar vectorKey).take 32 then some ⟨vectorPub, rfl⟩ else none

def vectorIdentity (nonce : Bytes) : LocalIdentity where
  pub := vectorPub
  priv := (clampScalar vectorKey).take 32 ++ nonce
  pub_length := rfl

theorem documented_vectorKey :
    Documented vectorMult vectorKey (vectorIdentity (vectorKey.drop 32)) :=
  (documented_iff (by decide +kernel)).mpr
    ⟨by decide +kernel, 0x94, by decide +kernel, by decide +kernel⟩

/-- The same scalar with a nonce prefix that ends in a line feed. -/
def trailingKey : Bytes := vectorKey.take 63 ++ [0x0a]

/-- Its raw file is refused. -/
theorem trailingKey_refused :
    fromBytes vectorMult trailingKey = some (vectorIdentity (trailingKey.drop 32)) ∧
      ¬ Documented vectorMult trailingKey (vectorIdentity (trailingKey.drop 32)) := by
  refine ⟨by decide +kernel, fun hdocumented => ?_⟩
  have hread := loads_iff.mp hdocumented.raw
  exact absurd hread (by decide +kernel)

end LocalIdentity

end Coreletd.Crypto
