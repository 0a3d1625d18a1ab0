import Mkey.Lib.Base64
import Mkey.Virgil.Keystore

/-!
# A keystore gives back what was put in

The private key of a device passes through base 64, RSA, base 64 again and a
text file, and is read back through all of them, whatever white space the file
has been given. A keystore that was generated is accepted by the check as far as
the library accepts its own keys, and decrypts with the key that was generated.

## Proof strategy

Each format is undone by its reader, on exactly the texts that spell the bytes
up to white space; the formats are composed, and the directory is read at the
names at which it was written.
-/
namespace Mkey.Virgil

open Text

/-! ### Texts -/

/-- What is documented of the standard engine: its alphabet, and that it reads back what it has
written and nothing else. -/
structure Base64Engine.Standard (engine : Base64Engine) : Prop where
  alphabet : ∀ bytes, ∀ c ∈ engine.encode bytes, c ∈ Base64.alphabet ∨ c = '='
  decode_encode : ∀ bytes, engine.decode (engine.encode bytes) = .ok bytes
  canonical : ∀ text bytes, engine.decode text = .ok bytes → text = engine.encode bytes

theorem alphabet_visible : ∀ c ∈ Base64.alphabet, ¬isWhitespace c := by
  have all : (Base64.alphabet.all fun c => !isWhitespace c) = true := by decide +kernel
  simpa only [List.all_eq_true, Bool.not_eq_true', Bool.not_eq_true] using all

/-- A text that spells some bytes, up to white space. -/
def Spells (engine : Base64Engine) (text : List Char) (bytes : List UInt8) : Prop :=
  ∃ front back, Blank front ∧ Blank back ∧ text = front ++ engine.encode bytes ++ back

section Texts

variable {engine : Base64Engine}

theorem encode_visible (standard : engine.Standard) {bytes : List UInt8} {c : Char}
    (member : c ∈ engine.encode bytes) : ¬isWhitespace c := by
  rcases standard.alphabet bytes c member with digit | rfl
  · exact alphabet_visible c digit
  · decide

/-- What is read of a text is what it spells. -/
theorem decode_trim_eq_ok_iff (standard : engine.Standard) {text : List Char}
    {bytes : List UInt8} : engine.decode (trim text) = .ok bytes ↔ Spells engine text bytes := by
  constructor
  · intro decoded
    obtain ⟨front, back, whole, before, after⟩ := trim_spec text
    rw [standard.canonical _ _ decoded] at whole
    exact ⟨front, back, before, after, whole⟩
  · rintro ⟨front, back, before, after, rfl⟩
    rw [trim_surrounded before (fun c => encode_visible standard) after]
    exact standard.decode_encode bytes

theorem Spells.self (bytes : List UInt8) : Spells engine (engine.encode bytes) bytes :=
  ⟨[], [], by simp [Blank], by simp [Blank], by simp⟩

theorem Spells.line (bytes : List UInt8) : Spells engine (engine.encode bytes ++ ['\n']) bytes :=
  ⟨[], ['\n'], by simp [Blank], by simp [Blank]; decide, rfl⟩

end Texts

/-! ### Wrapping -/

section Wrapping

variable {lib : RsaLibrary} {engine : Base64Engine}

/-- A wrapped key is unwrapped exactly when the plaintext spells it. -/
theorem decryptVirgilPrivateKey_eq_ok_iff (standard : engine.Standard)
    {rsaKeyDer encryptedKey der : List UInt8} :
    decryptVirgilPrivateKey lib engine rsaKeyDer encryptedKey = .ok der ↔
      ∃ key text, lib.fromPkcs8Der rsaKeyDer = .ok key ∧
        lib.decrypt key encryptedKey = .ok (utf8 text) ∧ Spells engine text der := by
  unfold decryptVirgilPrivateKey
  constructor
  · intro unwrapped
    -- each step either fails or hands on to the next
    split at unwrapped
    · cases unwrapped
    rename_i key parsed
    split at unwrapped
    · cases unwrapped
    rename_i plain decrypted
    split at unwrapped
    · cases unwrapped
    rename_i text read
    obtain rfl := fromUtf8_eq_some_iff.mp read
    cases decoded : engine.decode (trim text) with
    | error e =>
      rw [decoded] at unwrapped
      cases unwrapped
    | ok der' =>
      rw [decoded] at unwrapped
      obtain rfl : der' = der := Except.ok.inj unwrapped
      exact ⟨key, text, parsed, decrypted, (decode_trim_eq_ok_iff standard).mp decoded⟩
  · rintro ⟨key, text, parsed, decrypted, spells⟩
    simp only [parsed, decrypted, fromUtf8_utf8, (decode_trim_eq_ok_iff standard).mpr spells,
      Except.mapError]

/-- What is known of RSA: a private key reads what is written for its public half, an encoded key
is decoded, and the encodings are told apart. -/
structure RsaLibrary.Lawful (lib : RsaLibrary) : Prop where
  decrypt_encrypt : ∀ rng key message ciphertext,
    lib.encrypt rng (lib.toPublicKey key) message = .ok ciphertext →
      lib.decrypt key ciphertext = .ok message
  fromPkcs8Der_toPkcs8Der : ∀ key der, lib.toPkcs8Der key = .ok der →
    lib.fromPkcs8Der der = .ok key
  pkcs8_not_public : ∀ key der, lib.toPkcs8Der key = .ok der →
    (∃ e, lib.fromPublicKeyDer der = .error e) ∧ ∃ e, lib.fromPkcs1Der der = .error e

/-- Wrapping is undone by the private key, with whichever encoding of its public half the key was
wrapped. -/
theorem decrypt_encryptVirgilPrivateKey (lawful : lib.Lawful) (standard : engine.Standard)
    {rng : lib.Rng} {key : lib.PrivateKey} {rsaKeyDer publicDer der wrapped : List UInt8}
    (parsed : lib.fromPkcs8Der rsaKeyDer = .ok key)
    (half : rsaPublicKey lib publicDer = .ok (lib.toPublicKey key))
    (encrypted : encryptVirgilPrivateKey lib engine rng publicDer der = .ok wrapped) :
    decryptVirgilPrivateKey lib engine rsaKeyDer wrapped = .ok der := by
  unfold encryptVirgilPrivateKey at encrypted
  rw [half] at encrypted
  cases written : lib.encrypt rng (lib.toPublicKey key) (utf8 (engine.encode der)) with
  | error e =>
    simp only [written, bind, Except.bind] at encrypted
    cases encrypted
  | ok ciphertext =>
    simp only [written, bind, Except.bind] at encrypted
    obtain rfl : ciphertext = wrapped := Except.ok.inj encrypted
    refine (decryptVirgilPrivateKey_eq_ok_iff standard).mpr
      ⟨key, engine.encode der, parsed, ?_, Spells.self der⟩
    exact lawful.decrypt_encrypt rng key _ _ written

/-- The private key itself stands for its public half. -/
theorem rsaPublicKey_of_pkcs8 (lawful : lib.Lawful) {key : lib.PrivateKey} {der : List UInt8}
    (encoded : lib.toPkcs8Der key = .ok der) :
    rsaPublicKey lib der = .ok (lib.toPublicKey key) := by
  obtain ⟨⟨e, notSpki⟩, e', notPkcs1⟩ := lawful.pkcs8_not_public key der encoded
  simp only [rsaPublicKey, notSpki, notPkcs1, lawful.fromPkcs8Der_toPkcs8Der key der encoded]

end Wrapping

/-! ### Directories -/

namespace Directory

theorem read_write (dir : Directory) (name : String) (data : List UInt8) :
    (dir.write name data).read name = some data := by
  simp [write, read]

theorem read_write_of_ne (dir : Directory) {name other : String} (distinct : other ≠ name)
    (data : List UInt8) : (dir.write name data).read other = dir.read other := by
  have missed : (other == name) = false := beq_eq_false_iff_ne.mpr distinct
  have left : (dir.filter fun file => file.1 ≠ name).lookup other = dir.lookup other := by
    induction dir with
    | nil => rfl
    | cons file rest ih =>
      by_cases here : file.1 = name
      · rw [List.filter_cons_of_neg (by simpa using here), ih, List.lookup_cons, here, missed]
      · rw [List.filter_cons_of_pos (by simpa using here), List.lookup_cons, List.lookup_cons, ih]
  rw [read, write, List.lookup_cons, missed, left, read]

theorem read_filled (files dir : Directory) (name : String)
    (distinct : (files.map Prod.fst).Nodup) :
    (files.foldl (fun dir file => dir.write file.1 file.2) dir).read name =
      (files.read name).or (dir.read name) := by
  induction files generalizing dir with
  | nil => rfl
  | cons file rest ih =>
    rw [List.map_cons, List.nodup_cons] at distinct
    rw [List.foldl_cons, ih _ distinct.2]
    by_cases here : name = file.1
    · -- a file is written once, so it stays as it was written
      have later : Directory.read rest name = none := by
        rw [read, List.lookup_eq_none_iff]
        rintro other member
        rw [here]
        refine bne_iff_ne.mpr fun same => distinct.1 ?_
        exact same ▸ List.mem_map_of_mem member
      rw [later, Option.none_or, here, read_write, read, List.lookup_cons_self, Option.some_or]
    · have missed : Directory.read (file :: rest) name = Directory.read rest name := by
        rw [read, List.lookup, beq_eq_false_iff_ne.mpr here, read]
      rw [read_write_of_ne dir here, missed]

end Directory

section Readers

variable {engine : Base64Engine} (standard : engine.Standard)
include standard

theorem readBase64_eq_ok {dir : Directory} {name : String} {text : List Char}
    {bytes : List UInt8} (present : dir.read name = some (utf8 text))
    (spells : Spells engine text bytes) : readBase64 engine dir name = .ok bytes := by
  simp only [readBase64, readFile, present, bind, Except.bind, fromUtf8_utf8,
    (decode_trim_eq_ok_iff standard).mpr spells, Except.mapError]

/-- A text in lines of 64 characters between its delimiters spells the bytes. -/
theorem pem_lines (label : String) (der : List UInt8) :
    ∃ lines : List (List Char), pem engine label der = s!"-----BEGIN {label}-----\n".toList ++
        lines.flatMap (· ++ ['\n']) ++ s!"-----END {label}-----\n".toList ∧
      (∀ line ∈ lines, line.length ≤ 64) ∧ engine.decode lines.flatten = .ok der := by
  refine ⟨wrapped 64 (engine.encode der), rfl, fun _ => length_le_of_mem_wrapped, ?_⟩
  rw [flatten_wrapped (by decide), standard.decode_encode]

end Readers

/-! ### Keystores -/

/-- A directory with the keystore of a key pair: the copy of the private key may be gone, and the
text of the wrapped one may stand in white space. -/
structure Holds (engine : Base64Engine) (dir : Directory) (rsaKeyDer sdkBlob : List UInt8)
    (pair : VirgilKeyPair) : Prop where
  rsa : dir.read rsaPrivateKeyFile = some rsaKeyDer
  sdk : ∃ text, dir.read sdkTxt = some (utf8 text) ∧ Spells engine text sdkBlob
  sec1 : ∀ copy, dir.read virgilPrivateSec1 = some copy → copy = pair.privateKeyDer
  spki : dir.read virgilPublicSpki = some pair.publicKeyDer

/-- A directory holds one keystore at most. -/
theorem Holds.unique {engine : Base64Engine} (standard : engine.Standard) {dir : Directory}
    {rsaKeyDer rsaKeyDer' sdkBlob sdkBlob' : List UInt8} {pair pair' : VirgilKeyPair}
    (holds : Holds engine dir rsaKeyDer sdkBlob pair)
    (other : Holds engine dir rsaKeyDer' sdkBlob' pair') :
    rsaKeyDer = rsaKeyDer' ∧ sdkBlob = sdkBlob' := by
  obtain ⟨text, present, spells⟩ := holds.sdk
  obtain ⟨text', present', spells'⟩ := other.sdk
  have read := readBase64_eq_ok standard present spells
  have read' := readBase64_eq_ok standard present' spells'
  exact ⟨Option.some.inj (holds.rsa.symm.trans other.rsa), Except.ok.inj (read.symm.trans read')⟩

section Files

variable (engine : Base64Engine) (rsaKeyDer sdkBlob : List UInt8) (pair : VirgilKeyPair)
  (dir : Directory)

/-- A directory with the files of a keystore written into it. -/
def keystoreWritten : Directory :=
  (keystoreFiles engine rsaKeyDer sdkBlob pair).foldl (fun dir file => dir.write file.1 file.2) dir

/-- The names of the files of a keystore. -/
def keystoreNames : List String :=
  [rsaPrivateKeyFile, sdkTxt, virgilPrivateSec1, virgilPublicSpki, virgilPublicB64,
    virgilPublicPem]

theorem read_keystoreWritten (name : String) :
    (keystoreWritten engine rsaKeyDer sdkBlob pair dir).read name =
      (Directory.read (keystoreFiles engine rsaKeyDer sdkBlob pair) name).or (dir.read name) := by
  apply Directory.read_filled
  change keystoreNames.Nodup
  decide

theorem read_keystoreWritten_of_notMem {name : String} (other : name ∉ keystoreNames) :
    (keystoreWritten engine rsaKeyDer sdkBlob pair dir).read name = dir.read name := by
  have absent : Directory.read (keystoreFiles engine rsaKeyDer sdkBlob pair) name = none := by
    rw [Directory.read, List.lookup_eq_none_iff]
    intro file member
    refine bne_iff_ne.mpr fun same => other ?_
    exact same ▸ List.mem_map_of_mem (f := Prod.fst) member
  rw [read_keystoreWritten, absent, Option.none_or]

theorem keystoreWritten_holds :
    Holds engine (keystoreWritten engine rsaKeyDer sdkBlob pair dir) rsaKeyDer sdkBlob pair where
  rsa := by
    rw [read_keystoreWritten]
    rfl
  sdk := by
    -- it is written with the end of a line behind it
    refine ⟨_, ?_, Spells.line sdkBlob⟩
    rw [read_keystoreWritten]
    rfl
  sec1 := by
    intro copy stored
    rw [read_keystoreWritten] at stored
    exact (Option.some.inj stored).symm
  spki := by
    rw [read_keystoreWritten]
    rfl

end Files

section Keystores

variable {W : Type} [Foundation W] {lib : RsaLibrary} {engine : Base64Engine}

/-- The check of a keystore is what the library says of the key pair. -/
theorem Holds.check {dir : Directory} {rsaKeyDer sdkBlob : List UInt8} {pair : VirgilKeyPair}
    (standard : engine.Standard) (holds : Holds engine dir rsaKeyDer sdkBlob pair)
    (unwraps : decryptVirgilPrivateKey lib engine rsaKeyDer sdkBlob = .ok pair.privateKeyDer)
    (instantiated instantiated' : Except Error W) :
    keystoreCheck lib engine instantiated instantiated' dir = (do
      let derived ← (deriveVirgilPublicKey instantiated pair.privateKeyDer).2.mapError .virgil
      let roundtrip ← (roundtripVirgilPublicKey instantiated' pair.publicKeyDer).2.mapError .virgil
      return derived = pair.publicKeyDer && roundtrip = pair.publicKeyDer) := by
  obtain ⟨text, present, spells⟩ := holds.sdk
  -- a copy that is gone is not checked
  have copies : (dir.read virgilPrivateSec1).all (· = pair.privateKeyDer) = true := by
    cases stored : dir.read virgilPrivateSec1 with
    | none => rfl
    | some copy => simpa using holds.sec1 copy stored
  simp only [keystoreCheck, readBase64_eq_ok standard present spells, readFile, holds.rsa,
    holds.spki, unwraps, copies, bind, Except.bind, Except.mapError, Bool.true_and]

variable (parseAll : List UInt8 → List Ber.Tlv)

/-- What the holder of a private key reads of a container. -/
def readContainer (instantiated : Except Error W) (privateKeyDer encryptedMkeyData : List UInt8) :
    Guarded (Except Error MobileKey) := do
  match ← parseVirgilContainer encryptedMkeyData with
  | .error e => return .error e
  | .ok container =>
    return (VirgilRuntime.scope instantiated (decryptContent container privateKeyDer)).2.bind
      fun decrypted => (MobileKey.fromBytes parseAll decrypted).mapError .key

theorem Holds.decode {dir : Directory} {rsaKeyDer sdkBlob : List UInt8} {pair : VirgilKeyPair}
    (standard : engine.Standard) (holds : Holds engine dir rsaKeyDer sdkBlob pair)
    (unwraps : decryptVirgilPrivateKey lib engine rsaKeyDer sdkBlob = .ok pair.privateKeyDer)
    (instantiated : Except Error W) (encryptedMkeyData : List UInt8) :
    mkeyDecode lib engine parseAll instantiated dir (engine.encode encryptedMkeyData) =
      (readContainer parseAll instantiated pair.privateKeyDer encryptedMkeyData).map
        (Except.mapError .virgil) := by
  obtain ⟨text, present, spells⟩ := holds.sdk
  simp only [mkeyDecode, readBase64_eq_ok standard present spells, readFile, holds.rsa,
    standard.decode_encode, decryptMobileKey, readContainer, unwraps]
  cases parsed : parseVirgilContainer encryptedMkeyData with
  | error panic => rfl
  | ok outcome =>
    cases outcome with
    | error e => rfl
    | ok container => rfl

omit [Foundation W] in
theorem generateRsaPrivateKey_eq_ok {rng : lib.Rng} {der : List UInt8}
    (generated : generateRsaPrivateKey lib rng = .ok der) :
    ∃ key, lib.toPkcs8Der key = .ok der := by
  unfold generateRsaPrivateKey at generated
  split at generated
  · cases generated
  · rename_i key _
    refine ⟨key, ?_⟩
    cases encoded : lib.toPkcs8Der key with
    | error e =>
      rw [encoded] at generated
      cases generated
    | ok bytes =>
      rw [encoded] at generated
      exact congrArg _ (Except.ok.inj generated)

/-- What was generated is written into an empty directory, or over another by force. -/
theorem keystoreGen_eq_ok {force : Bool} {rng rng' : lib.Rng} {instantiated : Except Error W}
    {dir written : Directory}
    (generated : keystoreGen lib engine force rng rng' instantiated dir = .ok written) :
    (dir = [] ∨ force = true) ∧ ∃ rsaKeyDer sdkBlob pair,
      generateRsaPrivateKey lib rng = .ok rsaKeyDer ∧
      (generateVirgilKeyPair instantiated).2 = .ok pair ∧
      encryptVirgilPrivateKey lib engine rng' rsaKeyDer pair.privateKeyDer = .ok sdkBlob ∧
      written = keystoreWritten engine rsaKeyDer sdkBlob pair dir := by
  unfold keystoreGen at generated
  -- a directory with anything in it is refused, unless by force
  split_ifs at generated with refused
  refine ⟨?_, ?_⟩
  · rw [not_and_or, not_not, Bool.not_eq_false] at refused
    exact refused
  · cases rsa : generateRsaPrivateKey lib rng with
    | error e => simp [rsa, bind, Except.bind, Except.mapError] at generated
    | ok rsaKeyDer =>
      cases keys : (generateVirgilKeyPair instantiated).2 with
      | error e => simp [rsa, keys, bind, Except.bind, Except.mapError] at generated
      | ok pair =>
        cases wrapped : encryptVirgilPrivateKey lib engine rng' rsaKeyDer pair.privateKeyDer with
        | error e => simp [rsa, keys, wrapped, bind, Except.bind, Except.mapError] at generated
        | ok sdkBlob =>
          simp only [rsa, keys, wrapped, bind, Except.bind, Except.mapError, pure, Except.pure,
            Except.ok.injEq] at generated
          exact ⟨rsaKeyDer, sdkBlob, pair, rfl, rfl, wrapped, generated.symm⟩

/-- A keystore that was generated holds the key pair in all of its files and leaves the other files
alone; and as long as it holds the pair, the check says what the library says of it, and a mobile
key is read with the private key that was generated. -/
theorem keystore_usable (lawful : lib.Lawful) (standard : engine.Standard) {force : Bool}
    {rng rng' : lib.Rng} {instantiated : Except Error W} {dir written : Directory}
    (generated : keystoreGen lib engine force rng rng' instantiated dir = .ok written) :
    (dir = [] ∨ force = true) ∧ ∃ rsaKeyDer sdkBlob pair,
      (generateVirgilKeyPair instantiated).2 = .ok pair ∧
      Holds engine written rsaKeyDer sdkBlob pair ∧
      readBase64 engine written virgilPublicB64 = .ok pair.publicKeyDer ∧
      (∃ lines : List (List Char), written.read virgilPublicPem =
          some (utf8 ("-----BEGIN PUBLIC KEY-----\n".toList ++ lines.flatMap (· ++ ['\n']) ++
            "-----END PUBLIC KEY-----\n".toList)) ∧
        (∀ line ∈ lines, line.length ≤ 64) ∧
        engine.decode lines.flatten = .ok pair.publicKeyDer) ∧
      (∀ name, name ∉ keystoreNames → written.read name = dir.read name) ∧
      ∀ dir', Holds engine dir' rsaKeyDer sdkBlob pair →
        (∀ first second : Except Error W, keystoreCheck lib engine first second dir' = (do
          let derived ← (deriveVirgilPublicKey first pair.privateKeyDer).2.mapError .virgil
          let roundtrip ← (roundtripVirgilPublicKey second pair.publicKeyDer).2.mapError .virgil
          return derived = pair.publicKeyDer && roundtrip = pair.publicKeyDer)) ∧
        ∀ (later : Except Error W) data,
          mkeyDecode lib engine parseAll later dir' (engine.encode data) =
            (readContainer parseAll later pair.privateKeyDer data).map
              (Except.mapError .virgil) := by
  obtain ⟨allowed, rsaKeyDer, sdkBlob, pair, rsa, keys, wrapped, rfl⟩ := keystoreGen_eq_ok generated
  obtain ⟨key, encoded⟩ := generateRsaPrivateKey_eq_ok rsa
  have unwraps : decryptVirgilPrivateKey lib engine rsaKeyDer sdkBlob = .ok pair.privateKeyDer :=
    decrypt_encryptVirgilPrivateKey lawful standard
      (lawful.fromPkcs8Der_toPkcs8Der key _ encoded) (rsaPublicKey_of_pkcs8 lawful encoded) wrapped
  obtain ⟨lines, spelled, short, decoded⟩ := pem_lines standard "PUBLIC KEY" pair.publicKeyDer
  refine ⟨allowed, rsaKeyDer, sdkBlob, pair, keys, keystoreWritten_holds .., ?_,
    ⟨lines, ?_, short, decoded⟩, fun _ => read_keystoreWritten_of_notMem _ _ _ _ _, ?_⟩
  · exact readBase64_eq_ok standard ((read_keystoreWritten ..).trans rfl)
      (Spells.line pair.publicKeyDer)
  · have written : Directory.read (keystoreFiles engine rsaKeyDer sdkBlob pair) virgilPublicPem =
        some (utf8 (pem engine "PUBLIC KEY" pair.publicKeyDer)) := rfl
    rw [read_keystoreWritten, written, spelled]
    rfl
  · intro dir' holds
    exact ⟨holds.check standard unwraps, holds.decode parseAll standard unwraps⟩

end Keystores

/-! ### One key -/

/-- The last bytes of a number, from the top. -/
def bigEndian (size n : Nat) : List UInt8 :=
  (List.range size).map fun i => UInt8.ofNat (n / 256 ^ (size - 1 - i))

/-- Bytes in words of 32. -/
def fromWords (words : List Nat) : List UInt8 := words.flatMap (bigEndian 32)

/-- A key on the curve, for tests only. -/
def oneKeyPair : VirgilKeyPair where
  privateKeyDer := bigEndian 25 0x307702010104202F3E9142247211D3549D81C2AC1CF348DF07 ++
    fromWords [
      0x71D15F08951802465F2A12AB75C4A00A06082A8648CE3D030107A14403420004,
      0xDC61C865A598D28A3DCB5DCB76F0D3D5D9C646F420267274A7D69A3B98116146,
      0xC02AFD4A358FFC32BA2976B7A41262BD2E61449B854F598518C954E57C66ED43]
  publicKeyDer := bigEndian 27 0x3059301306072A8648CE3D020106082A8648CE3D03010703420004 ++
    fromWords [
      0xDC61C865A598D28A3DCB5DCB76F0D3D5D9C646F420267274A7D69A3B98116146,
      0xC02AFD4A358FFC32BA2976B7A41262BD2E61449B854F598518C954E57C66ED43]

/-- An RSA key of 2048 bits in PKCS#8, for tests only. -/
def oneRsaKeyDer : List UInt8 :=
  fromWords [
    0x308204BC020100300D06092A864886F70D0101010500048204A6308204A20201,
    0x000282010100910C536FA5A44CBB97A4118149B89A497AB466D45C721C7F3349,
    0x42259D9338EC38E877086278FEA18277F5B5568D2DC235832A0F69269E63DBD9,
    0x660A6CEAD966378DE29F2EBDE6B20DF199B9DF03027BFB1884D9EC5862B0AAD1,
    0x78E1F844CC2DD9C260F508772652A731D5CDFC23B553F99D513A3E81BF6B310E,
    0xBE42B4FA03EA50B7FAB8468FCB3393B178D0EA0E94B300480600AEF7F2F3C783,
    0x6C64AB812DE1875248B8D140F346C7BFBA92D4D6E3D9B6885438E80509516BCA,
    0x5246FFC8DC77DE7CE3597F0444AD7E14A4ADD46057CFCD4E9935CC426D139150,
    0x8FB4B1264260CBC3AA2FA24E4EA9CE9C5C6B969CBD49F27AFF73BD9F1DDEE1BA,
    0x48902382E6A902030100010282010028E5EFD4C840D67E0298F9729A05DA4323,
    0xBD204D7AAF96476B7F998E1FAB365EAD0127270F150CBF1F9991878B1B0DAEF8,
    0x05BEE34F83DB1F4F0B329177FA9448151C05AD5AB1A30DCB8EB708C8D0017051,
    0xF1ACEC018F3E6C900DB66708E8E5257C8429708DED82B9C578F0CF3EEC16A1D1,
    0xFD40BD0A88ED1F5D5AC9DCE748A3B78E3C81A60071DE490CF7EB376035D28F4C,
    0xDDDA53847C76FF5063F5C3772B7AA4C422784C12ACE5901D24A72C2B8BCDB24D,
    0xF6F4D7B0EAA84D12AD3AB01BF528EF782990717636C4B2701F0A8E693CBBE3F7,
    0x71C30108B43D9B043423993BE8DF429B57C6E9A843B5B88A77107CB185D87AFE,
    0x81388477862CDC29046453D68D58BD02818100C91804DBC7321AD6F161C26F98,
    0x7286ACFF51EEB05EA64F9DFD395E022CCE0EA94584C57A1D6DE7A34A59B27F80,
    0x857F4D8E616B2C174C8B44967C467D29E448C70337360A71FB6328B63CA28691,
    0x81322852BB17B4D8B06E8A82DD4F91C9E71E104A1BC6FFC5649A5836BD227DB2,
    0x0D56B1ED2B2BAEBB8F2A13E31AF12945A35EAB02818100B8A6D8E2F029DA451E,
    0xFAE26E2ECE833C9BCCEA65351FE5A42EA078FB65CAB07FA950370E819B0BCA76,
    0xC7A02279A7563FC5E292C9EF037A8C859657BE2970A34F17303928FFFB4010FE,
    0xBD23102B91662CA602C90BDD7BE1342DA571DA033E4448288444328C4ECB4546,
    0x5CF2B295E7F0578F7156B433FEDA08D6B055C0041B3FFB028180415F4E8D07F7,
    0x90E4193A579421B1F17821D447CD0C27F2B00096FAA9A859204904F181A50E16,
    0x217C62FA3FDDD53110CE6C9FDCD04B8EB5A3896C431A035954136647378933BE,
    0xAE6098C5A36C2DB71B50227CF1DAF7AA7B7509CFDA4321A8C18C381B4998F259,
    0x9F17584C29FF44B7B35C4A26839FDD17506D80A1CC8E473631DB0281800E194F,
    0x3E24B04D6631B35E4EA36C4940FB746E01444927339E0BCAB10758AE9950C83B,
    0x2BF4616E490B40BACD67148BD55ABAAE12951962E60FDD26DDF23413841A7528,
    0x2825437DE4CE4E8ABAD558C8C067FC96753D7813FDF3EE49FF27783DA674D184,
    0x93877B0CB241691F6EDB5B5652993542358832D15B13696B62B9ED8AB9028180,
    0x3A965967E4A356652CA613224C21E234AB97721289B0E8014BCB165C0798DC80,
    0xF78A134DBEF560095CDFE499BDAD416D3C08BA658E0769EED6DC8207F5381157,
    0x0AF665999662E232C9F5F590AD49E174D648F6F920AF27C9B92981ABA3C2D6DB,
    0x519A62252F6E7D7B037E7FD47C94CE81A6BD3329973CB9F58448E2107F5CB00C]

/-- The private key on the curve, in base 64, for the RSA key. -/
def oneSdkBlob : List UInt8 :=
  fromWords [
    0x64C8149BC97FC9DC9ADDBD5E84F206E0276990A4601E087FE12FEECBA84B8711,
    0xDB00E98D7E01D25C7AF26EBF95B7F1174F8F63441BF658298D3E1630BC9A6447,
    0x2A14E8F05680BA66C49E3EF0EBE21095BF711CD83942B6BCD1305D1EAB70A815,
    0xE7704FF2720644520CB69FCFE0795697647A1DDDBB88901DF23458998210DCC2,
    0xFCE83581A5C6BC5BC992A6AA19D1AD7150B18609761BDA3A41C498528CB8AB03,
    0xF9233337B8C4240D17278530F33DEBFFED35A60F3C768F38B152C67D27DD8068,
    0x039955D084294718AFAABB81739623FC4E6DA04D757A89C878A951CB5B25C9E5,
    0xE0F151D978B81D06CB763117BA962DCA01BECCD33780ED119959192B03C47F23]

/-- RSA on the one key: a table of what it does with it and the one message. -/
def oneRsaKey : RsaLibrary where
  Rng := Unit
  PublicKey := Unit
  PrivateKey := Unit
  new := fun _ bits => if bits = 2048 then .ok () else .error "another size"
  toPublicKey := id
  toPkcs8Der := fun _ => .ok oneRsaKeyDer
  fromPkcs8Der := fun der => if der = oneRsaKeyDer then .ok () else .error "not a private key"
  fromPublicKeyDer := fun _ => .error "not a public key"
  fromPkcs1Der := fun _ => .error "not a public key"
  encrypt := fun _ _ message =>
    if message = utf8 (Base64.encode oneKeyPair.privateKeyDer) then .ok oneSdkBlob
    else .error "another message"
  decrypt := fun _ ciphertext =>
    if ciphertext = oneSdkBlob then .ok (utf8 (Base64.encode oneKeyPair.privateKeyDer))
    else .error "another ciphertext"
  utf8Error := fun _ => "invalid utf-8 sequence"

theorem oneRsaKey_lawful : oneRsaKey.Lawful where
  decrypt_encrypt := by
    intro _ _ message ciphertext encrypted
    simp only [oneRsaKey] at encrypted ⊢
    split_ifs at encrypted with known
    obtain rfl := Except.ok.inj encrypted
    rw [if_pos rfl, known]
  fromPkcs8Der_toPkcs8Der := by
    rintro ⟨⟩ der encoded
    obtain rfl := Except.ok.inj encoded
    simp only [oneRsaKey, ↓reduceIte]
  pkcs8_not_public := fun _ _ _ => ⟨⟨_, rfl⟩, _, rfl⟩

def strictEngine : Base64Engine where
  encode := Base64.encode
  decode := fun text =>
    match Base64.decode text with
    | some bytes => .ok bytes
    | none => .error "Invalid symbol"

theorem strictEngine_standard : strictEngine.Standard where
  alphabet := fun _ _ => Base64.mem_encode
  decode_encode := by
    intro bytes
    simp only [strictEngine, Base64.decode_encode]
  canonical := by
    intro text bytes decoded
    simp only [strictEngine] at decoded
    split at decoded
    · rename_i read
      obtain rfl := Except.ok.inj decoded
      exact (Base64.decode_eq_some_iff _ _).mp read
    · cases decoded

/-- A crypto library of the one key on the curve: what stands in its buffers, by their handles. -/
structure OneEcKey where
  buffers : List (Int32 × List UInt8)

/-- A mobile key with an empty tag 0, an empty tag 1 and its kN key. -/
def plainMkey : List UInt8 := [0xC0, 0x00, 0xC1, 0x00, 0xC2, 0x10] ++ List.replicate 16 0x42

namespace OneEcKey

def fill (library : OneEcKey) (buffer : Int32) (data : List UInt8) :
    OneEcKey × Except String Int32 :=
  (⟨(buffer, data) :: library.buffers⟩, .ok 0)

def content (library : OneEcKey) (buffer : Int32) : List UInt8 :=
  (library.buffers.lookup buffer).getD []

end OneEcKey

instance : Foundation OneEcKey where
  call library func args :=
    match func, args with
    | .bufferNewWithCapacity, _ =>
      let buffer := Int32.ofNat (library.buffers.length + 1)
      (⟨(buffer, []) :: library.buffers⟩, .ok buffer)
    | .bufferBytes, [buffer] => (library, .ok buffer)
    | .bufferLen, [buffer] => (library, .ok (Int32.ofNat (library.content buffer).length))
    | .keyProviderExportPrivateKey, [_, _, buffer] => library.fill buffer oneKeyPair.privateKeyDer
    | .keyProviderExportPublicKey, [_, _, buffer] => library.fill buffer oneKeyPair.publicKeyDer
    | .recipientCipherProcessDecryption, [_, _, buffer] => library.fill buffer plainMkey
    | .recipientCipherFinishDecryption, [_, buffer] => library.fill buffer []
    | .ctrDrbgSetupDefaults, _ | .keyProviderSetupDefaults, _ | .errorStatus, _
    | .recipientCipherStartDecryptionWithKey, _ => (library, .ok 0)
    | _, _ => (library, .ok 1)
  write library _ _ := (library, .ok ())
  read library buffer size := .ok ((library.content buffer).take size)

/-- A container for some recipient. -/
def oneContainer : List UInt8 :=
  [0x30, 0x0A] ++ marker ++ [0x30, 0x24] ++ recipientPattern ++ List.replicate 32 0xAB ++
    List.replicate 48 0x42

/-- A fresh library. -/
def oneEcKey : Except Error OneEcKey := .ok ⟨[]⟩

theorem oneEcKey_generates : (generateVirgilKeyPair oneEcKey).2 = .ok oneKeyPair := by
  decide +kernel

theorem oneEcKey_derives :
    (deriveVirgilPublicKey oneEcKey oneKeyPair.privateKeyDer).2 = .ok oneKeyPair.publicKeyDer := by
  decide +kernel

theorem oneEcKey_roundtrips :
    (roundtripVirgilPublicKey oneEcKey oneKeyPair.publicKeyDer).2 =
      .ok oneKeyPair.publicKeyDer := by
  decide +kernel

theorem oneRsaKey_wraps :
    encryptVirgilPrivateKey oneRsaKey strictEngine () oneRsaKeyDer oneKeyPair.privateKeyDer =
      .ok oneSdkBlob := by
  simp only [encryptVirgilPrivateKey, rsaPublicKey, oneRsaKey, strictEngine, ↓reduceIte, bind,
    Except.bind, Except.mapError]

/-- The files of the one keystore, as they are written into an empty directory. -/
def oneKeystore : Directory := keystoreWritten strictEngine oneRsaKeyDer oneSdkBlob oneKeyPair []

theorem oneKeystore_generated :
    keystoreGen oneRsaKey strictEngine false () () oneEcKey [] = .ok oneKeystore := by
  have rsa : generateRsaPrivateKey oneRsaKey () = .ok oneRsaKeyDer := rfl
  simp only [keystoreGen, rsa, oneEcKey_generates, oneRsaKey_wraps, Except.mapError, bind,
    Except.bind, ne_eq, not_true_eq_false, false_and, ↓reduceIte]
  rfl

/-- The plaintext copy is deleted, and the text of the wrapped key has been through an editor. -/
def editedKeystore : Directory :=
  Directory.write (oneKeystore.filter fun file => file.1 ≠ virgilPrivateSec1) sdkTxt
    (utf8 (['\t', ' '] ++ Base64.encode oneSdkBlob ++ ['\r', '\n']))

theorem editedKeystore_holds :
    Holds strictEngine editedKeystore oneRsaKeyDer oneSdkBlob oneKeyPair where
  rsa := rfl
  sdk := ⟨_, rfl, ['\t', ' '], ['\r', '\n'], by simp [Blank]; decide, by simp [Blank]; decide, rfl⟩
  sec1 := by
    intro copy stored
    have gone : editedKeystore.read virgilPrivateSec1 = none := rfl
    rw [gone] at stored
    cases stored
  spki := rfl

/-- The parts of the container. -/
def oneMessage : VirgilContainer where
  messageInfo := [0x30, 0x24] ++ recipientPattern ++ List.replicate 32 0xAB
  encryptedContent := List.replicate 48 0x42
  recipientId := List.replicate 32 0xAB

theorem oneContainer_splits : parseVirgilContainer oneContainer = .ok (.ok oneMessage) := by
  decide +kernel

theorem oneMessage_decrypts :
    (VirgilRuntime.scope oneEcKey (decryptContent oneMessage oneKeyPair.privateKeyDer)).2 =
      .ok plainMkey := by
  decide +kernel

theorem plainMkey_read : ∃ key, MobileKey.fromBytes Ber.parseAll plainMkey = .ok key ∧
    key.knKey = Block.replicate 0x42 :=
  ⟨_, rfl, rfl⟩

/-- A keystore that was generated and edited since is accepted, and decrypts a mobile key. -/
theorem keystore_usable_one_key :
    keystoreGen oneRsaKey strictEngine false () () oneEcKey [] = .ok oneKeystore ∧
    keystoreCheck oneRsaKey strictEngine oneEcKey oneEcKey editedKeystore = .ok true ∧
    ∃ key, mkeyDecode oneRsaKey strictEngine Ber.parseAll oneEcKey editedKeystore
        (Base64.encode oneContainer) = .ok (.ok key) ∧
      key.knKey = Block.replicate 0x42 := by
  obtain ⟨key, read, kn⟩ := plainMkey_read
  obtain ⟨_, rsa, blob, pair, keys, holds, _, _, _, later⟩ :=
    keystore_usable Ber.parseAll oneRsaKey_lawful strictEngine_standard oneKeystore_generated
  obtain rfl : oneKeyPair = pair := Except.ok.inj (oneEcKey_generates.symm.trans keys)
  obtain ⟨rfl, rfl⟩ := (keystoreWritten_holds ..).unique strictEngine_standard holds
  obtain ⟨checked, decoded⟩ := later editedKeystore editedKeystore_holds
  refine ⟨oneKeystore_generated, ?_, key, ?_, kn⟩
  · rw [checked, oneEcKey_derives, oneEcKey_roundtrips]
    simp [Except.mapError, bind, Except.bind, pure, Except.pure]
  · refine (decoded oneEcKey oneContainer).trans ?_
    simp only [readContainer, oneContainer_splits, oneMessage_decrypts, bind, Except.bind, read,
      Except.mapError, pure, Except.pure, Except.map]

end Mkey.Virgil
