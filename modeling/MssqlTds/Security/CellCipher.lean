import MssqlTds.Error
import MssqlTds.Lib.Unicode

/-!
# The cell cipher `AEAD_AES_256_CBC_HMAC_SHA256`

A cell of an encrypted column is sealed by encrypt-then-MAC: three keys are derived from the column
encryption key, the plaintext is encrypted with the first, and a tag over the version, the
initialization vector and the ciphertext is computed with the second.  The third derives the
initialization vector from the plaintext when equal plaintexts are to give equal cells.

AES, HMAC and the random numbers come from the platform: `Crypto` is what the driver calls, and
`Crypto.Lawful` what is documented of it.

* `decrypt_of_authentic`, `decrypt_of_not_authentic` : a blob is put to AES exactly if it is
  authentic, and what is not authentic is refused whatever AES would have made of it.
* `decrypt_encrypt` : a sealed cell is authentic and opens to its plaintext.
-/

namespace MssqlTds.Security

/-- The cryptographic primitives of the platform. -/
structure Crypto where
  hmacSha256 : List UInt8 → List UInt8 → TdsResult (Vector UInt8 32)
  /-- AES-256-CBC with PKCS#7 padding: key, initialization vector, plaintext. -/
  aes256CbcEncrypt : Vector UInt8 32 → Vector UInt8 16 → List UInt8 → TdsResult (List UInt8)
  aes256CbcDecrypt : Vector UInt8 32 → Vector UInt8 16 → List UInt8 → TdsResult (List UInt8)

/-- HMAC is a function, AES encrypts to at least one block (the padding is never empty), and
decryption inverts encryption. -/
structure Crypto.Lawful (c : Crypto) : Prop where
  hmac_total : ∀ key data, ∃ mac, c.hmacSha256 key data = .ok mac
  decrypt_encrypt : ∀ key iv plaintext, ∃ ciphertext,
    c.aes256CbcEncrypt key iv plaintext = .ok ciphertext ∧ 16 ≤ ciphertext.length ∧
      c.aes256CbcDecrypt key iv ciphertext = .ok plaintext

/-- Compares byte strings without an early exit. -/
def constantTimeEq (a b : List UInt8) : Bool :=
  if a.length ≠ b.length then false
  else (a.zip b).foldl (fun diff xy => diff ||| (xy.1 ^^^ xy.2)) 0 == 0

theorem foldl_or_xor_eq_zero {diff : UInt8} {a b : List UInt8} (h : a.length = b.length) :
    (a.zip b).foldl (fun diff xy => diff ||| (xy.1 ^^^ xy.2)) diff = 0 ↔ diff = 0 ∧ a = b := by
  induction a generalizing diff b with
  | nil =>
    cases b with
    | nil => simp
    | cons y b => simp at h
  | cons x a ih =>
    cases b with
    | nil => simp at h
    | cons y b =>
      rw [List.zip_cons_cons, List.foldl_cons, ih (Nat.succ.inj h), UInt8.or_eq_zero_iff,
        UInt8.xor_eq_zero_iff, List.cons.injEq, and_assoc]

theorem constantTimeEq_iff {a b : List UInt8} : constantTimeEq a b = true ↔ a = b := by
  rw [constantTimeEq]
  split_ifs with h
  · simp only [false_iff]
    exact fun heq => h (congrArg List.length heq)
  · rw [beq_iff_eq, foldl_or_xor_eq_zero (not_not.mp h)]
    simp

/-- The array a slice is turned into, if it has the right length. -/
def tryIntoArray (n : ℕ) (slice : List UInt8) (expected : String) : TdsResult (Vector UInt8 n) :=
  if h : slice.length = n then .ok ⟨slice.toArray, h⟩ else .error (.panic expected)

/-- Whether equal plaintexts give equal cells. -/
inductive ColumnEncryptionType where
  | deterministic
  | randomized
  deriving DecidableEq

def keySizeInBytes : ℕ := 32

def blockSizeInBytes : ℕ := 16

def tagSizeInBytes : ℕ := 32

/-- The first byte of a cell. -/
def algorithmVersion : UInt8 := 0x01

/-- The last byte of what the tag is computed over. -/
def versionSizeByte : UInt8 := 0x01

/-- Version, tag, initialization vector and one cipher block. -/
def minCiphertextLen : ℕ := 1 + tagSizeInBytes + blockSizeInBytes + blockSizeInBytes

def keySalt (purpose : String) : String :=
  s!"Microsoft SQL Server cell {purpose} key with encryption algorithm:" ++
    "AEAD_AES_256_CBC_HMAC_SHA256 and key length:256"

/-- A byte in the form `0x0a`. -/
def lowerHexByte (b : UInt8) : String :=
  let digit (n : ℕ) : Char := Char.ofNat (if n < 10 then 48 + n else 87 + n)
  String.ofList ['0', 'x', digit (b.toNat / 16), digit (b.toNat % 16)]

/-- The keys derived from a column encryption key. -/
structure AeadAes256CbcHmacSha256 where
  encryptionKey : Vector UInt8 32
  macKey : Vector UInt8 32
  ivKey : Vector UInt8 32

/-! ### The parts of a cell -/

def blobTag (blob : List UInt8) : List UInt8 := (blob.drop 1).take tagSizeInBytes

def blobIv (blob : List UInt8) : List UInt8 :=
  (blob.drop (1 + tagSizeInBytes)).take blockSizeInBytes

def blobCiphertext (blob : List UInt8) : List UInt8 :=
  blob.drop (1 + tagSizeInBytes + blockSizeInBytes)

/-- A cell of the given parts. -/
def cellBlob (tag iv ciphertext : List UInt8) : List UInt8 :=
  [algorithmVersion] ++ tag ++ iv ++ ciphertext

section Parts

variable {tag iv ciphertext : List UInt8} (htag : tag.length = tagSizeInBytes)
  (hiv : iv.length = blockSizeInBytes)

include htag in
theorem blobTag_cellBlob : blobTag (cellBlob tag iv ciphertext) = tag := by
  simp [blobTag, cellBlob, ← htag]

include htag hiv in
theorem blobIv_cellBlob : blobIv (cellBlob tag iv ciphertext) = iv := by
  simp [blobIv, cellBlob, ← htag, ← hiv, Nat.add_comm 1]

include htag hiv in
theorem blobCiphertext_cellBlob : blobCiphertext (cellBlob tag iv ciphertext) = ciphertext := by
  have hlength : ([algorithmVersion] ++ tag ++ iv).length =
      1 + tagSizeInBytes + blockSizeInBytes := by
    simp only [List.length_append, List.length_singleton, htag, hiv]
  rw [blobCiphertext, cellBlob, ← hlength, List.drop_left]

end Parts

namespace AeadAes256CbcHmacSha256

variable (c : Crypto)

def deriveKey (rootKey : List UInt8) (salt : String) : TdsResult (Vector UInt8 32) :=
  c.hmacSha256 rootKey (Unicode.utf16le salt.toList)

/-- Derives the keys. -/
def new (rootKey : List UInt8) : TdsResult AeadAes256CbcHmacSha256 := do
  if rootKey.length ≠ keySizeInBytes then
    throw (.columnEncryptionError
      ("Invalid column encryption key size for AEAD_AES_256_CBC_HMAC_SHA256: " ++
        s!"expected {keySizeInBytes} bytes, got {rootKey.length}"))
  let encryptionKey ← deriveKey c rootKey (keySalt "encryption")
  let macKey ← deriveKey c rootKey (keySalt "MAC")
  let ivKey ← deriveKey c rootKey (keySalt "IV")
  pure ⟨encryptionKey, macKey, ivKey⟩

variable (cipher : AeadAes256CbcHmacSha256)

/-- The tag over version, initialization vector, ciphertext and version size. -/
def authenticationTag (iv ciphertext : List UInt8) : TdsResult (Vector UInt8 32) :=
  c.hmacSha256 cipher.macKey.toList
    ([algorithmVersion] ++ iv ++ ciphertext ++ [versionSizeByte])

/-- Seals a plaintext.  `random` is what the platform's generator returns. -/
def encrypt (random : TdsResult (Vector UInt8 16)) (plaintext : List UInt8)
    (encryptionType : ColumnEncryptionType) : TdsResult (List UInt8) := do
  let iv ← match encryptionType with
    | .deterministic => do
      let full ← c.hmacSha256 cipher.ivKey.toList plaintext
      tryIntoArray 16 (full.toList.take blockSizeInBytes)
        "HMAC output is at least one AES block"
    | .randomized => random
  let ciphertext ← c.aes256CbcEncrypt cipher.encryptionKey iv plaintext
  let tag ← cipher.authenticationTag c iv.toList ciphertext
  pure (cellBlob tag.toList iv.toList ciphertext)

/-- Opens a cell. -/
def decrypt (blob : List UInt8) : TdsResult (List UInt8) := do
  if blob.length < minCiphertextLen then
    throw (.columnEncryptionError
      s!"Ciphertext too short: {blob.length} bytes (minimum {minCiphertextLen})")
  if blob.headD 0 ≠ algorithmVersion then
    throw (.columnEncryptionError
      (s!"Unsupported cipher algorithm version: {lowerHexByte (blob.headD 0)} " ++
        s!"(expected {lowerHexByte algorithmVersion})"))
  let expectedTag ← cipher.authenticationTag c (blobIv blob) (blobCiphertext blob)
  if !constantTimeEq expectedTag.toList (blobTag blob) then
    throw (.columnEncryptionError
      ("Authentication tag mismatch; the ciphertext may have been tampered with or the " ++
        "wrong column encryption key was used"))
  let iv ← tryIntoArray 16 (blobIv blob)
    "IV slice is exactly one AES block by construction"
  c.aes256CbcDecrypt cipher.encryptionKey iv (blobCiphertext blob)

/-! ### What is opened -/

/-- A blob is long enough, has the version byte, and its tag is the one computed over its own
version, initialization vector and ciphertext. -/
structure Authentic (blob : List UInt8) : Prop where
  long : minCiphertextLen ≤ blob.length
  version : blob.head? = some algorithmVersion
  tag : ∃ mac : Vector UInt8 32, mac.toList = blobTag blob ∧ c.hmacSha256 cipher.macKey.toList
    ([algorithmVersion] ++ blobIv blob ++ blobCiphertext blob ++ [versionSizeByte]) = .ok mac

variable {c cipher} {blob : List UInt8}

theorem length_blobIv (h : minCiphertextLen ≤ blob.length) :
    (blobIv blob).length = blockSizeInBytes := by
  simp only [minCiphertextLen, tagSizeInBytes, blockSizeInBytes] at h
  simp only [blobIv, tagSizeInBytes, blockSizeInBytes, List.length_take, List.length_drop]
  omega

theorem headD_eq_iff (h : minCiphertextLen ≤ blob.length) :
    blob.headD 0 = algorithmVersion ↔ blob.head? = some algorithmVersion := by
  cases blob with
  | nil => simp [minCiphertextLen] at h
  | cons b blob => simp

/-- **An authentic blob is put to AES**, with its own initialization vector. -/
theorem decrypt_of_authentic (h : cipher.Authentic c blob) :
    ∃ iv : Vector UInt8 16, iv.toList = blobIv blob ∧ cipher.decrypt c blob =
      c.aes256CbcDecrypt cipher.encryptionKey iv (blobCiphertext blob) := by
  obtain ⟨mac, hmac, htag⟩ := h.tag
  let iv : Vector UInt8 16 := ⟨(blobIv blob).toArray, length_blobIv h.long⟩
  have hiv : tryIntoArray 16 (blobIv blob)
      "IV slice is exactly one AES block by construction" = .ok iv :=
    dif_pos (length_blobIv h.long)
  have heq : constantTimeEq mac.toList (blobTag blob) = true := constantTimeEq_iff.mpr hmac
  have hversion := (headD_eq_iff h.long).mpr h.version
  refine ⟨iv, rfl, ?_⟩
  rw [decrypt, if_neg (not_lt.mpr h.long), if_neg (not_not.mpr hversion), authenticationTag, htag]
  simp only [bind, Except.bind, heq, hiv, Bool.not_true, Bool.false_eq_true, if_false]

/-- **What is not authentic is refused** before AES is asked. -/
theorem decrypt_of_not_authentic (h : ¬ cipher.Authentic c blob) :
    ∃ error, ∀ decryption, cipher.decrypt { c with aes256CbcDecrypt := decryption } blob =
      .error error := by
  by_cases hlong : blob.length < minCiphertextLen
  · exact ⟨_, fun decryption => by rw [decrypt, if_pos hlong]; rfl⟩
  by_cases hversion : blob.headD 0 ≠ algorithmVersion
  · exact ⟨_, fun decryption => by rw [decrypt, if_neg hlong, if_pos hversion]; rfl⟩
  have hsame : ∀ decryption,
      cipher.authenticationTag { c with aes256CbcDecrypt := decryption } (blobIv blob)
        (blobCiphertext blob) =
      cipher.authenticationTag c (blobIv blob) (blobCiphertext blob) := fun _ => rfl
  cases htag : cipher.authenticationTag c (blobIv blob) (blobCiphertext blob) with
  | error error =>
    refine ⟨error, ?_⟩
    intro decryption
    rw [decrypt, if_neg hlong, if_neg hversion, hsame, htag]
    rfl
  | ok mac =>
    have hmismatch : constantTimeEq mac.toList (blobTag blob) = false := by
      rw [← Bool.not_eq_true, constantTimeEq_iff]
      intro heq
      have hlong' := not_lt.mp hlong
      exact h ⟨hlong', (headD_eq_iff hlong').mp (not_not.mp hversion), mac, heq, htag⟩
    refine ⟨.columnEncryptionError
      ("Authentication tag mismatch; the ciphertext may have been tampered with or the " ++
        "wrong column encryption key was used"), ?_⟩
    intro decryption
    rw [decrypt, if_neg hlong, if_neg hversion, hsame, htag]
    simp only [bind, Except.bind, hmismatch, Bool.not_false, if_true]
    rfl

/-- The initialization vector a plaintext is sealed with. -/
theorem encrypt_eq (hc : c.Lawful) (random : Vector UInt8 16) (plaintext : List UInt8)
    (encryptionType : ColumnEncryptionType) :
    ∃ (iv : Vector UInt8 16) (tag : Vector UInt8 32) (ciphertext : List UInt8),
      cipher.encrypt c (.ok random) plaintext encryptionType =
        .ok (cellBlob tag.toList iv.toList ciphertext) ∧
      cipher.authenticationTag c iv.toList ciphertext = .ok tag ∧ 16 ≤ ciphertext.length ∧
      c.aes256CbcDecrypt cipher.encryptionKey iv ciphertext = .ok plaintext := by
  have hseal : ∀ iv : Vector UInt8 16, ∃ (tag : Vector UInt8 32) (ciphertext : List UInt8),
      c.aes256CbcEncrypt cipher.encryptionKey iv plaintext = .ok ciphertext ∧
      cipher.authenticationTag c iv.toList ciphertext = .ok tag ∧ 16 ≤ ciphertext.length ∧
      c.aes256CbcDecrypt cipher.encryptionKey iv ciphertext = .ok plaintext := by
    intro iv
    obtain ⟨ciphertext, hencrypt, hlength, hdecrypt⟩ :=
      hc.decrypt_encrypt cipher.encryptionKey iv plaintext
    obtain ⟨tag, htag⟩ := hc.hmac_total cipher.macKey.toList
      ([algorithmVersion] ++ iv.toList ++ ciphertext ++ [versionSizeByte])
    exact ⟨tag, ciphertext, hencrypt, htag, hlength, hdecrypt⟩
  cases encryptionType with
  | deterministic =>
    obtain ⟨full, hfull⟩ := hc.hmac_total cipher.ivKey.toList plaintext
    have hlength : (full.toList.take blockSizeInBytes).length = 16 := by
      simp [blockSizeInBytes]
    let iv : Vector UInt8 16 := ⟨(full.toList.take blockSizeInBytes).toArray, hlength⟩
    have hiv : tryIntoArray 16 (full.toList.take blockSizeInBytes)
        "HMAC output is at least one AES block" = .ok iv := dif_pos hlength
    obtain ⟨tag, ciphertext, hencrypt, htag, hrest⟩ := hseal iv
    refine ⟨iv, tag, ciphertext, ?_, htag, hrest⟩
    simp only [encrypt, hfull, hiv, hencrypt, htag, bind, Except.bind]
    rfl
  | randomized =>
    obtain ⟨tag, ciphertext, hencrypt, htag, hrest⟩ := hseal random
    refine ⟨random, tag, ciphertext, ?_, htag, hrest⟩
    simp only [encrypt, hencrypt, htag, bind, Except.bind]
    rfl

/-- **A sealed cell is authentic and opens to its plaintext.** -/
theorem decrypt_encrypt (hc : c.Lawful) (random : Vector UInt8 16) (plaintext : List UInt8)
    (encryptionType : ColumnEncryptionType) :
    ∃ blob, cipher.encrypt c (.ok random) plaintext encryptionType = .ok blob ∧
      cipher.Authentic c blob ∧ cipher.decrypt c blob = .ok plaintext := by
  obtain ⟨iv, tag, ciphertext, hencrypt, htag, hlength, hdecrypt⟩ :=
    @encrypt_eq c cipher hc random plaintext encryptionType
  have htagLength : tag.toList.length = tagSizeInBytes := tag.length_toList
  have hivLength : iv.toList.length = blockSizeInBytes := iv.length_toList
  have hauthentic : cipher.Authentic c (cellBlob tag.toList iv.toList ciphertext) := by
    refine ⟨?_, rfl, tag, (blobTag_cellBlob htagLength).symm, ?_⟩
    · simp only [cellBlob, List.length_append, List.length_singleton, htagLength, hivLength,
        minCiphertextLen, blockSizeInBytes]
      omega
    · rw [blobIv_cellBlob htagLength hivLength, blobCiphertext_cellBlob htagLength hivLength]
      exact htag
  refine ⟨_, hencrypt, hauthentic, ?_⟩
  obtain ⟨iv', hiv', hopen⟩ := decrypt_of_authentic hauthentic
  rw [blobIv_cellBlob htagLength hivLength] at hiv'
  rw [hopen, blobCiphertext_cellBlob htagLength hivLength, Vector.toList_inj.mp hiv', hdecrypt]

theorem new_eq_ok (hc : c.Lawful) {rootKey : List UInt8} (h : rootKey.length = keySizeInBytes) :
    ∃ cipher, new c rootKey = .ok cipher := by
  obtain ⟨encryptionKey, hencryption⟩ :=
    hc.hmac_total rootKey (Unicode.utf16le (keySalt "encryption").toList)
  obtain ⟨macKey, hmac⟩ := hc.hmac_total rootKey (Unicode.utf16le (keySalt "MAC").toList)
  obtain ⟨ivKey, hiv⟩ := hc.hmac_total rootKey (Unicode.utf16le (keySalt "IV").toList)
  refine ⟨⟨encryptionKey, macKey, ivKey⟩, ?_⟩
  rw [new, if_neg (not_not.mpr h)]
  simp only [deriveKey, hencryption, hmac, hiv, bind, Except.bind]
  rfl

end AeadAes256CbcHmacSha256

end MssqlTds.Security
