import GameBackend.StdString
import GameBackend.Text
import Mathlib.Data.Nat.Bitwise

/-!
# Stored passwords

`PasswordHasher`: a password is stored as `pbkdf2_sha256$<iterations>$<salt>$<digest>`,
salt and digest in hex. The key derivation of the library is a parameter, which fails or
yields 32 bytes.

`HashPassword` has the empty string for a failure, and `VerifyPassword` compares what it
returns with the digest. So a stored string without digest accepts every password for which
no key can be derived, and every password at all when its count is not positive
(`verifiesSoundly_iff`). What `BuildEncodedHash` has made verifies exactly the passwords
with the same key (`verifyPassword_buildEncodedHash`).
-/

namespace GameBackend

namespace PasswordHasher

open StdString

def kSchemePrefix : List Char := "pbkdf2_sha256".toList

def kDerivedKeyLength : ℕ := 32

abbrev DerivedKey : Type := Vector UInt8 kDerivedKeyLength

/-- `PKCS5_PBKDF2_HMAC` with SHA-256: the key of a password, a salt and an iteration count,
unless it fails. -/
abbrev Pbkdf2 : Type := List UInt8 → List UInt8 → ℤ → Option DerivedKey

/-! ## Hex -/

def kHexDigits : List Char := "0123456789abcdef".toList

def hexDigit (nibble : UInt8) : Char := kHexDigits.getD nibble.toNat '0'

def toHex : List UInt8 → List Char
  | [] => []
  | byte :: data => hexDigit ((byte >>> 4) &&& 0x0F) :: hexDigit (byte &&& 0x0F) :: toHex data

/-- The value of a hex digit of either case; `none` is -1. -/
def decode (ch : Char) : Option ℕ :=
  if '0' ≤ ch ∧ ch ≤ '9' then some (ch.toNat - '0'.toNat)
  else if 'a' ≤ ch ∧ ch ≤ 'f' then some (ch.toNat - 'a'.toNat + 10)
  else if 'A' ≤ ch ∧ ch ≤ 'F' then some (ch.toNat - 'A'.toNat + 10)
  else none

/-- The loop of `FromHex`, two digits a round. -/
def fromHexLoop : List Char → Option (List UInt8)
  | first :: second :: rest => do
    let high ← decode first
    let low ← decode second
    let output ← fromHexLoop rest
    return UInt8.ofNat ((high <<< 4) ||| low) :: output
  | _ => some []

def fromHex (hex : List Char) : Option (List UInt8) :=
  if hex.length % 2 ≠ 0 then none else fromHexLoop hex

/-! ## Hashing and verifying -/

/-- `std::stoi`; `none` is an exception. -/
def stoi (text : List Char) : Option ℤ :=
  (stoll (String.ofList text)).filter fun n => -2 ^ 31 ≤ n ∧ n < 2 ^ 31

def hashPassword (pbkdf2 : Pbkdf2) (password salt : List UInt8) (iterations : ℤ) : List Char :=
  if iterations ≤ 0 then []
  else
    match pbkdf2 password salt iterations with
    | none => []
    | some derivedKey => toHex derivedKey.toList

def verifyPassword (pbkdf2 : Pbkdf2) (password : List UInt8) (encodedHash : List Char) : Bool :=
  let first := find encodedHash ['$'] 0
  let second := first.bind fun first => find encodedHash ['$'] (first + 1)
  let third := second.bind fun second => find encodedHash ['$'] (second + 1)
  match first, second, third with
  | some first, some second, some third =>
    if substr encodedHash 0 first ≠ kSchemePrefix then false
    else
      match stoi (substr encodedHash (first + 1) (second - first - 1)) with
      | none => false
      | some iterations =>
        let saltHex := substr encodedHash (second + 1) (third - second - 1)
        let expectedHash := encodedHash.drop (third + 1)
        match fromHex saltHex with
        | none => false
        | some salt => hashPassword pbkdf2 password salt iterations == expectedHash
  | _, _, _ => false

def buildEncodedHash (pbkdf2 : Pbkdf2) (password salt : List UInt8) (iterations : ℤ) :
    Option (List Char) :=
  let hashed := hashPassword pbkdf2 password salt iterations
  if hashed.isEmpty then none
  else
    some (kSchemePrefix ++ '$' :: (toString iterations).toList ++ '$' :: toHex salt ++
      '$' :: hashed)

/-! ## Round trips -/

theorem toHex_length (data : List UInt8) : (toHex data).length = 2 * data.length := by
  induction data with
  | nil => rfl
  | cons byte data ih =>
    simp only [toHex, List.length_cons, ih]
    omega

/-- The digits are lower-case hex digits. -/
theorem mem_toHex {data : List UInt8} {c : Char} (h : c ∈ toHex data) : c ∈ kHexDigits := by
  have hdigit (nibble : UInt8) : hexDigit nibble ∈ kHexDigits := by
    rw [hexDigit, List.getD_eq_getElem?_getD]
    rcases hget : kHexDigits[nibble.toNat]? with _ | digit
    · decide
    · exact List.mem_of_getElem? hget
  induction data with
  | nil => cases h
  | cons byte data ih =>
    simp only [toHex, List.mem_cons] at h
    obtain rfl | rfl | h := h
    · exact hdigit _
    · exact hdigit _
    · exact ih h

/-- Each of the sixteen digits is read as its own value. -/
theorem decode_hexDigit {nibble : UInt8} (h : nibble.toNat < 16) :
    decode (hexDigit nibble) = some nibble.toNat := by
  have hall : ∀ n : Fin 16, decode (kHexDigits.getD n.val '0') = some n.val := by decide
  exact hall ⟨nibble.toNat, h⟩

/-- A byte is its two halves. -/
theorem halves (byte : UInt8) :
    ((byte >>> 4) &&& 0x0F).toNat = byte.toNat / 16 ∧ (byte &&& 0x0F).toNat = byte.toNat % 16 := by
  have hbyte := byte.toNat_lt
  have hmask (n : ℕ) : n &&& 15 = n % 16 := Nat.and_two_pow_sub_one_eq_mod n 4
  constructor
  · rw [UInt8.toNat_and, UInt8.toNat_shiftRight, show (4 : UInt8).toNat % 8 = 4 from rfl,
      show (0x0F : UInt8).toNat = 15 from rfl, hmask, Nat.shiftRight_eq_div_pow]
    omega
  · rw [UInt8.toNat_and, show (0x0F : UInt8).toNat = 15 from rfl, hmask]

theorem fromHexLoop_toHex (data : List UInt8) : fromHexLoop (toHex data) = some data := by
  induction data with
  | nil => rfl
  | cons byte data ih =>
    have hbyte := byte.toNat_lt
    obtain ⟨hhigh, hlow⟩ := halves byte
    have hjoin : (byte.toNat / 16) <<< 4 ||| byte.toNat % 16 = byte.toNat := by
      rw [← Nat.shiftLeft_add_eq_or_of_lt (by omega), Nat.shiftLeft_eq]
      omega
    simp only [toHex, fromHexLoop]
    rw [decode_hexDigit (by omega), decode_hexDigit (by omega), ih, hhigh, hlow]
    simp only [Option.bind_eq_bind, Option.bind_some, Option.pure_def, hjoin, UInt8.ofNat_toNat]

/-- `FromHex` reads back what `ToHex` has printed. -/
theorem fromHex_toHex (data : List UInt8) : fromHex (toHex data) = some data := by
  rw [fromHex, if_neg (by rw [toHex_length]; omega), fromHexLoop_toHex]

theorem toHex_inj {data data' : List UInt8} (h : toHex data = toHex data') : data = data' := by
  have hback := fromHex_toHex data
  rw [h, fromHex_toHex] at hback
  exact (Option.some.inj hback).symm

theorem stoi_toString {n : ℤ} (hlow : -2 ^ 31 ≤ n) (hhigh : n < 2 ^ 31) :
    stoi (toString n).toList = some n := by
  rw [stoi, String.ofList_toList, stoll_toString, Option.filter_some,
    if_pos (decide_eq_true ⟨hlow, hhigh⟩)]

/-! ## What a stored string says -/

/-- The four fields of a stored string, as text. -/
structure Fields where
  scheme : List Char
  iterations : List Char
  saltHex : List Char
  digest : List Char
  deriving DecidableEq

def Fields.text (f : Fields) : List Char :=
  f.scheme ++ '$' :: (f.iterations ++ '$' :: (f.saltHex ++ '$' :: f.digest))

/-- A stored string is cut at its first three dollar signs. -/
def fields (encodedHash : List Char) : Option Fields := do
  let (scheme, rest) ← splitFirst '$' encodedHash
  let (iterations, rest) ← splitFirst '$' rest
  let (saltHex, digest) ← splitFirst '$' rest
  return ⟨scheme, iterations, saltHex, digest⟩

theorem fields_eq_some {encodedHash : List Char} {f : Fields} :
    fields encodedHash = some f ↔
      encodedHash = f.text ∧ '$' ∉ f.scheme ∧ '$' ∉ f.iterations ∧ '$' ∉ f.saltHex := by
  simp only [fields, Option.bind_eq_bind, Option.bind_eq_some_iff, Option.pure_def,
    Option.some.injEq, Prod.exists, splitFirst_eq_some]
  constructor
  · rintro ⟨_, _, ⟨rfl, hscheme⟩, _, _, ⟨rfl, hiterations⟩, _, _, ⟨rfl, hsalt⟩, rfl⟩
    exact ⟨rfl, hscheme, hiterations, hsalt⟩
  · rintro ⟨rfl, hscheme, hiterations, hsalt⟩
    exact ⟨_, _, ⟨rfl, hscheme⟩, _, _, ⟨rfl, hiterations⟩, _, _, ⟨rfl, hsalt⟩, rfl⟩

/-- What `VerifyPassword` reads in a stored string. -/
structure Stored where
  iterations : ℤ
  salt : List UInt8
  expectedHash : List Char
  deriving DecidableEq

/-- It is read when it has four fields, the scheme, a number and the hex of a salt. -/
def readStored (encodedHash : List Char) : Option Stored := do
  let f ← fields encodedHash
  if f.scheme ≠ kSchemePrefix then none
  else
    let iterations ← stoi f.iterations
    let salt ← fromHex f.saltHex
    return ⟨iterations, salt, f.digest⟩

variable {pbkdf2 : Pbkdf2} {password : List UInt8} {encodedHash : List Char}

theorem readStored_eq_some {stored : Stored} :
    readStored encodedHash = some stored ↔
      ∃ f : Fields, fields encodedHash = some f ∧ f.scheme = kSchemePrefix ∧
        stoi f.iterations = some stored.iterations ∧ fromHex f.saltHex = some stored.salt ∧
        f.digest = stored.expectedHash := by
  obtain ⟨iterations, salt, expectedHash⟩ := stored
  rw [readStored, Option.bind_eq_bind, Option.bind_eq_some_iff]
  refine exists_congr fun f => and_congr_right fun _ => ?_
  by_cases hscheme : f.scheme = kSchemePrefix
  · simp [hscheme, Option.bind_eq_some_iff]
  · simp [hscheme]

/-- `VerifyPassword` compares the digest it reads with the hash of the password. -/
theorem verifyPassword_eq (pbkdf2 : Pbkdf2) (password : List UInt8) (encodedHash : List Char) :
    verifyPassword pbkdf2 password encodedHash =
      match readStored encodedHash with
      | none => false
      | some stored =>
        hashPassword pbkdf2 password stored.salt stored.iterations == stored.expectedHash := by
  -- three searches, each from where the last one ended, are three cuts of what is left
  have hfields : fields encodedHash = (do
      let first ← find encodedHash ['$'] 0
      let second ← find encodedHash ['$'] (first + 1)
      let third ← find encodedHash ['$'] (second + 1)
      return ⟨substr encodedHash 0 first, substr encodedHash (first + 1) (second - first - 1),
        substr encodedHash (second + 1) (third - second - 1), encodedHash.drop (third + 1)⟩) := by
    have hfirst := splitFirst_drop '$' encodedHash 0
    rw [List.drop_zero] at hfirst
    simp only [fields, hfirst, splitFirst_drop, Option.bind_eq_bind, Option.bind_map,
      Function.comp_def, Nat.sub_zero, Nat.sub_sub]
  simp only [verifyPassword, readStored, hfields, Option.bind_eq_bind, Option.pure_def]
  cases hfirst : find encodedHash ['$'] 0 with
  | none => rfl
  | some first =>
    simp only [Option.bind_some]
    cases hsecond : find encodedHash ['$'] (first + 1) with
    | none => rfl
    | some second =>
      simp only [Option.bind_some]
      cases hthird : find encodedHash ['$'] (second + 1) with
      | none => rfl
      | some third =>
        simp only [Option.bind_some]
        split_ifs with hscheme
        · rfl
        · cases stoi (substr encodedHash (first + 1) (second - first - 1)) with
          | none => rfl
          | some iterations =>
            cases fromHex (substr encodedHash (second + 1) (third - second - 1)) with
            | none => rfl
            | some salt => rfl

/-! ## Soundness -/

/-- A key of the password can be derived from what is stored. -/
def Derivable (pbkdf2 : Pbkdf2) (password : List UInt8) (stored : Stored) : Prop :=
  0 < stored.iterations ∧ (pbkdf2 password stored.salt stored.iterations).isSome = true

/-- The stored string has its form, with a positive count, and its digest is the hex of the
key of the password. -/
def Matches (pbkdf2 : Pbkdf2) (password : List UInt8) (encodedHash : List Char) : Prop :=
  ∃ (iterationsText saltHex : List Char) (iterations : ℤ) (salt : List UInt8)
    (key : DerivedKey),
    encodedHash = kSchemePrefix ++ '$' :: (iterationsText ++ '$' :: (saltHex ++
      '$' :: toHex key.toList)) ∧
    '$' ∉ iterationsText ∧ '$' ∉ saltHex ∧
    stoi iterationsText = some iterations ∧ 0 < iterations ∧ fromHex saltHex = some salt ∧
    pbkdf2 password salt iterations = some key

/-- Only the password of a stored key is accepted, and none where no key can be derived. -/
structure VerifiesSoundly (pbkdf2 : Pbkdf2) (password : List UInt8) (encodedHash : List Char) :
    Prop where
  accepts : verifyPassword pbkdf2 password encodedHash = true → Matches pbkdf2 password encodedHash
  refuses : (∀ stored, readStored encodedHash = some stored → ¬Derivable pbkdf2 password stored) →
    verifyPassword pbkdf2 password encodedHash = false

theorem Derivable.hashPassword {stored : Stored} (h : Derivable pbkdf2 password stored) :
    ∃ key, pbkdf2 password stored.salt stored.iterations = some key ∧
      hashPassword pbkdf2 password stored.salt stored.iterations = toHex key.toList := by
  obtain ⟨hpos, hsome⟩ := h
  obtain ⟨key, hkey⟩ := Option.isSome_iff_exists.mp hsome
  refine ⟨key, hkey, ?_⟩
  rw [PasswordHasher.hashPassword, if_neg (Int.not_le.mpr hpos), hkey]

theorem hashPassword_of_not_derivable {stored : Stored}
    (h : ¬Derivable pbkdf2 password stored) :
    hashPassword pbkdf2 password stored.salt stored.iterations = [] := by
  rw [hashPassword]
  split_ifs with hpos
  · rfl
  · cases hkey : pbkdf2 password stored.salt stored.iterations with
    | none => rfl
    | some key => exact absurd ⟨Int.not_le.mp hpos, by rw [hkey]; rfl⟩ h

theorem toHex_key_ne_nil (key : DerivedKey) : toHex key.toList ≠ [] := by
  intro hnil
  have hlength := toHex_length key.toList
  rw [hnil, Vector.length_toList] at hlength
  exact absurd hlength (by decide)

theorem verifyPassword_iff {stored : Stored} (h : readStored encodedHash = some stored) :
    verifyPassword pbkdf2 password encodedHash = true ↔
      hashPassword pbkdf2 password stored.salt stored.iterations = stored.expectedHash := by
  rw [verifyPassword_eq, h]
  exact beq_iff_eq

theorem verifyPassword_unread (h : readStored encodedHash = none) :
    verifyPassword pbkdf2 password encodedHash = false := by
  rw [verifyPassword_eq, h]

/-- A password is verified soundly against a stored string unless this can be read, has an
empty digest, and no key can be derived from it. -/
theorem verifiesSoundly_iff (pbkdf2 : Pbkdf2) (password : List UInt8)
    (encodedHash : List Char) :
    VerifiesSoundly pbkdf2 password encodedHash ↔
      ∀ stored, readStored encodedHash = some stored → stored.expectedHash = [] →
        Derivable pbkdf2 password stored := by
  constructor
  · intro hsound stored hread hempty
    by_contra hderivable
    -- the empty digest is what `HashPassword` returns for a failure
    have htrue : verifyPassword pbkdf2 password encodedHash = true := by
      rw [verifyPassword_iff hread, hashPassword_of_not_derivable hderivable, hempty]
    have hfalse := hsound.refuses fun stored' hread' => by
      obtain rfl := Option.some.inj (hread.symm.trans hread')
      exact hderivable
    rw [htrue] at hfalse
    cases hfalse
  · intro hdigest
    -- what is accepted has been read, and a key has been derived
    have haccepted (htrue : verifyPassword pbkdf2 password encodedHash = true) :
        ∃ stored, readStored encodedHash = some stored ∧ Derivable pbkdf2 password stored ∧
          hashPassword pbkdf2 password stored.salt stored.iterations = stored.expectedHash := by
      cases hread : readStored encodedHash with
      | none =>
        rw [verifyPassword_unread hread] at htrue
        cases htrue
      | some stored =>
        have hhash := (verifyPassword_iff hread).mp htrue
        refine ⟨stored, rfl, ?_, hhash⟩
        by_contra hderivable
        rw [hashPassword_of_not_derivable hderivable] at hhash
        exact hderivable (hdigest stored hread hhash.symm)
    refine ⟨fun htrue => ?_, fun hnone => ?_⟩
    · obtain ⟨stored, hread, hderivable, hhash⟩ := haccepted htrue
      obtain ⟨key, hkey, hhex⟩ := hderivable.hashPassword
      obtain ⟨f, hfields, hscheme, hiterations, hsalt, hexpected⟩ := readStored_eq_some.mp hread
      obtain ⟨rfl, -, hplain, hplain'⟩ := fields_eq_some.mp hfields
      refine ⟨f.iterations, f.saltHex, stored.iterations, stored.salt, key, ?_, hplain, hplain',
        hiterations, hderivable.1, hsalt, hkey⟩
      rw [Fields.text, hscheme, hexpected, ← hhash, hhex]
    · by_contra htrue
      obtain ⟨stored, hread, hderivable, -⟩ := haccepted (Bool.of_not_eq_false htrue)
      exact hnone stored hread hderivable

/-- The library on `password` with the salt `salt` and one iteration; it is asked for no
other key here. -/
def demoPbkdf2 : Pbkdf2 := fun password salt iterations =>
  if password = "password".toUTF8.data.toList ∧ salt = "salt".toUTF8.data.toList ∧
      iterations = 1 then
    some #v[0x12, 0x0F, 0xB6, 0xCF, 0xFC, 0xF8, 0xB3, 0x2C, 0x43, 0xE7, 0x22, 0x52, 0x56, 0xC4,
      0xF8, 0x37, 0xA8, 0x65, 0x48, 0xC9, 0x2C, 0xCC, 0x35, 0x48, 0x08, 0x05, 0x98, 0x7C,
      0xB7, 0x0B, 0xE1, 0x7B]
  else none

/-- A count of zero and no digest: the empty password, as any other, is accepted. -/
theorem empty_digest_accepts :
    ¬VerifiesSoundly demoPbkdf2 [] "pbkdf2_sha256$0$$".toList := by
  intro hsound
  have htrue : verifyPassword demoPbkdf2 [] "pbkdf2_sha256$0$$".toList = true := by
    decide +kernel
  obtain ⟨_, _, iterations, _, key, htext, hplain, hplain', -⟩ := hsound.accepts htrue
  -- the digest of a key is not empty
  have hlength := congrArg List.length htext
  simp only [List.length_append, List.length_cons, toHex_length, Vector.length_toList] at hlength
  have hshort : "pbkdf2_sha256$0$$".toList.length = 17 := by decide
  rw [hshort, kDerivedKeyLength] at hlength
  omega

/-! ## Round trip -/

/-- What `BuildEncodedHash` makes is read as the count, the salt and the hex of the key. -/
theorem readStored_encoded {iterations : ℤ} (hpos : 0 < iterations) (hint : iterations < 2 ^ 31)
    (salt : List UInt8) (key : DerivedKey) :
    readStored (kSchemePrefix ++ '$' :: (toString iterations).toList ++ '$' :: toHex salt ++
      '$' :: toHex key.toList) = some ⟨iterations, salt, toHex key.toList⟩ := by
  refine readStored_eq_some.mpr
    ⟨⟨kSchemePrefix, (toString iterations).toList, toHex salt, toHex key.toList⟩,
      fields_eq_some.mpr ⟨?_, ?_, ?_, ?_⟩, rfl, ?_, fromHex_toHex salt, rfl⟩
  · simp only [Fields.text, List.append_assoc, List.cons_append]
  · exact (by decide : '$' ∉ kSchemePrefix)
  · intro hmem
    obtain hdigit | hminus := mem_toString hmem
    · exact absurd hdigit (by decide)
    · exact absurd hminus (by decide)
  · exact fun hmem => absurd (mem_toHex hmem) (by decide)
  · exact stoi_toString (by omega) hint

/-- What `BuildEncodedHash` has made of a password verifies exactly the passwords with the
same key, and so the password itself. -/
theorem verifyPassword_buildEncodedHash (pbkdf2 : Pbkdf2) (p salt : List UInt8)
    {iterations : ℤ} (hpos : 0 < iterations) (hint : iterations < 2 ^ 31) {key : DerivedKey}
    (hkey : pbkdf2 p salt iterations = some key) :
    ∃ encodedHash, buildEncodedHash pbkdf2 p salt iterations = some encodedHash ∧
      (∀ q, verifyPassword pbkdf2 q encodedHash = true ↔
        pbkdf2 q salt iterations = pbkdf2 p salt iterations) ∧
      verifyPassword pbkdf2 p encodedHash = true := by
  have hhash (q : List UInt8) : hashPassword pbkdf2 q salt iterations =
      ((pbkdf2 q salt iterations).map fun key => toHex key.toList).getD [] := by
    rw [hashPassword, if_neg (Int.not_le.mpr hpos)]
    cases pbkdf2 q salt iterations <;> rfl
  have hbuild : buildEncodedHash pbkdf2 p salt iterations = some (kSchemePrefix ++
      '$' :: (toString iterations).toList ++ '$' :: toHex salt ++ '$' :: toHex key.toList) := by
    have hnonempty : (toHex key.toList).isEmpty = false :=
      List.isEmpty_eq_false_iff.mpr (toHex_key_ne_nil key)
    rw [buildEncodedHash, hhash, hkey, Option.map_some, Option.getD_some, hnonempty]
    rfl
  have hverify (q : List UInt8) : verifyPassword pbkdf2 q _ = true ↔ _ :=
    verifyPassword_iff (readStored_encoded hpos hint salt key)
  refine ⟨_, hbuild, fun q => ?_, ?_⟩
  · rw [hverify, hhash, hkey]
    cases pbkdf2 q salt iterations with
    | none =>
      constructor
      · exact fun h => absurd h.symm (toHex_key_ne_nil key)
      · exact nofun
    | some key' =>
      rw [Option.map_some, Option.getD_some, Option.some.injEq, ← Vector.toList_inj]
      exact ⟨toHex_inj, congrArg toHex⟩
  · rw [hverify, hhash, hkey, Option.map_some, Option.getD_some]

/-- `password` with the salt `salt` and one iteration verifies. -/
theorem verifyPassword_buildEncodedHash_demo :
    let password := "password".toUTF8.data.toList
    let salt := "salt".toUTF8.data.toList
    ∃ encodedHash, buildEncodedHash demoPbkdf2 password salt 1 = some encodedHash ∧
      (∀ q, verifyPassword demoPbkdf2 q encodedHash = true ↔
        demoPbkdf2 q salt 1 = demoPbkdf2 password salt 1) ∧
      verifyPassword demoPbkdf2 password encodedHash = true :=
  verifyPassword_buildEncodedHash demoPbkdf2 _ _ (by decide) (by decide)
    (if_pos ⟨rfl, rfl, rfl⟩)

end PasswordHasher

end GameBackend
