import Telemetry.Proofs.Cipher.Der
import Telemetry.Proofs.Cipher.Payload
import Telemetry.Proofs.Cipher.Pem
import Telemetry.Report.Transport

/-!
# Which keys can encrypt

The keys that a file may hold have an upper bound on their size and no lower
one, while a block has room only under a key that is longer than the overhead of
a block.  Every size up to the bound is let through; a key encrypts everything
or, when it is too short, stops the task whatever is encrypted.
-/

namespace Telemetry

namespace Rsa.PublicKey

variable {key : PublicKey} {bytes : Bytes}

/-! ## Keys that are let through -/

/-- What the reader asks of a key. -/
theorem isValid_iff :
    key.isValid = true ↔ bitLength key.modulus ≤ maxModulusBits ∧
      key.exponent < key.modulus ∧
      key.modulus % 2 = 1 ∧ key.exponent % 2 = 1 ∧ 2 ≤ key.exponent ∧
        key.exponent < exponentBound := by
  unfold isValid
  simp only [Bool.and_eq_true, decide_eq_true_iff, beq_iff_eq, and_assoc]

theorem isValid_of_ofBare? (h : ofBare? bytes = some key) :
    key.isValid = true := by
  unfold ofBare? at h
  simp only [Option.bind_eq_bind, Option.bind_eq_some_iff] at h
  obtain ⟨contents, -, ⟨modulus, rest⟩, -, ⟨exponent, last⟩, -, hkey⟩ := h
  split_ifs at hkey with hvalid
  obtain rfl := Option.some.inj hkey
  exact hvalid.2

theorem isValid_of_ofNamed? (h : ofNamed? bytes = some key) :
    key.isValid = true := by
  unfold ofNamed? at h
  simp only [Option.bind_eq_bind, Option.bind_eq_some_iff] at h
  obtain ⟨contents, -, ⟨algorithm, rest⟩, -, bits, -, bare, -, hkey⟩ := h
  split_ifs at hkey
  exact isValid_of_ofBare? hkey

/-- A key is checked in the same way whatever form it is written in. -/
theorem isValid_of_ofPem {pem : Bytes} (h : ofPem pem = .ok key) :
    key.isValid = true := by
  unfold ofPem at h
  split at h
  · nomatch h
  next block _ =>
    dsimp only at h
    split_ifs at h
    -- a certificate, a key with its algorithm and a bare key
    · split at h
      · nomatch h
      · split at h
        next hfound =>
          rw [← Except.ok.inj h]
          exact isValid_of_ofNamed? hfound
        · nomatch h
    · split at h
      next hfound =>
        rw [← Except.ok.inj h]
        exact isValid_of_ofNamed? hfound
      · nomatch h
    · split at h
      next hfound =>
        rw [← Except.ok.inj h]
        exact isValid_of_ofBare? hfound
      · nomatch h

theorem size_of_isValid (h : key.isValid = true) :
    1 ≤ key.size ∧ key.size ≤ maxModulusBits / 8 := by
  obtain ⟨hbits, hlt, -, -, htwo, -⟩ := isValid_iff.mp h
  have hpos : key.modulus ≠ 0 := by omega
  constructor
  · unfold size
    rw [byteLength_of_ne_zero hpos]
    exact Nat.succ_pos _
  · unfold size byteLength maxModulusBits at *
    omega

/-! ## Keys that are written -/

/-- The structure of a bare key. -/
def bare (key : PublicKey) : Bytes :=
  Der.write Der.sequenceTag
    (Der.writeUnsigned key.modulus ++ Der.writeUnsigned key.exponent)

def algorithmName : Bytes :=
  Der.write Der.identifierTag algorithmIdentifier ++ Der.write Der.nullTag []

/-- The structure of a key with the name of its algorithm. -/
def named (key : PublicKey) : Bytes :=
  Der.write Der.sequenceTag
    (Der.write Der.sequenceTag algorithmName ++
      Der.write Der.bitStringTag (0 :: key.bare))

/-- The forms in which a key stands in a file, apart from a certificate. -/
inductive Form where
  | bare
  | named
  deriving DecidableEq, Repr

def Form.label : Form → String
  | .bare => "RSA PUBLIC KEY"
  | .named => "PUBLIC KEY"

/-- The block of a file that holds a key. -/
def Form.block (key : PublicKey) (form : Form) : Pem.Block where
  label := form.label
  contents := match form with
    | .bare => key.bare
    | .named => key.named

theorem Form.isLabel_label (form : Form) : Pem.IsLabel form.label := by
  cases form with
  | bare => exact ⟨by decide +kernel, by decide +kernel⟩
  | named => exact ⟨by decide +kernel, by decide +kernel⟩

/-- The numbers of a key are written in few bytes. -/
theorem bitLength_of_isValid (h : key.isValid = true) :
    bitLength key.modulus ≤ 4096 ∧ bitLength key.exponent ≤ 33 := by
  obtain ⟨hbits, -, -, -, -, hexponent⟩ := isValid_iff.mp h
  exact ⟨hbits, bitLength_le_of_lt hexponent⟩

theorem length_contents_le (h : key.isValid = true) :
    (Der.writeUnsigned key.modulus ++ Der.writeUnsigned key.exponent).length ≤
      530 := by
  have hspan := span_four
  obtain ⟨hmodulus, hexponent⟩ := bitLength_of_isValid h
  have hfirst :
      (Der.writeUnsigned key.modulus).length ≤ bitLength key.modulus / 8 + 7 :=
    Der.length_writeUnsigned_le (by omega)
  have hsecond : (Der.writeUnsigned key.exponent).length ≤
      bitLength key.exponent / 8 + 7 :=
    Der.length_writeUnsigned_le (by omega)
  rw [List.length_append]
  omega

theorem length_bare_le (h : key.isValid = true) : key.bare.length ≤ 536 := by
  have hspan := span_four
  have hcontents := length_contents_le h
  have hle : key.bare.length ≤ _ + 6 := Der.length_write_le (by omega)
  omega

theorem ofBare?_bare (h : key.isValid = true) :
    ofBare? key.bare = some key := by
  have hspan := span_four
  obtain ⟨hmodulus, hexponent⟩ := bitLength_of_isValid h
  have hlength := length_contents_le h
  have hfirst := Der.readUnsigned?_writeUnsigned_append (n := key.modulus)
    (by omega) (Der.writeUnsigned key.exponent)
  have hsecond :=
    Der.readUnsigned?_writeUnsigned_append (n := key.exponent) (by omega) []
  rw [List.append_nil] at hsecond
  unfold ofBare? bare
  rw [Der.only?_write (by omega)]
  simp only [Option.bind_eq_bind, Option.bind_some, hfirst, hsecond]
  exact if_pos ⟨trivial, h⟩

theorem namesAlgorithm_algorithmName :
    namesAlgorithm algorithmName = true := by decide

theorem ofNamed?_named (h : key.isValid = true) :
    ofNamed? key.named = some key := by
  have hspan := span_four
  have hbare := length_bare_le h
  have hbits : (0 :: key.bare).length < span 4 := by
    rw [List.length_cons]
    omega
  have hstring : (Der.write Der.bitStringTag (0 :: key.bare)).length ≤ _ + 6 :=
    Der.length_write_le hbits
  have hname : (Der.write Der.sequenceTag algorithmName).length = 15 := by
    decide
  have hcontents : (Der.write Der.sequenceTag algorithmName ++
      Der.write Der.bitStringTag (0 :: key.bare)).length < span 4 := by
    rw [List.length_cons] at hstring
    rw [List.length_append]
    omega
  have halgorithm (rest : Bytes) :
      Der.tagged? Der.sequenceTag
        (Der.write Der.sequenceTag algorithmName ++ rest) =
        some (algorithmName, rest) := Der.tagged?_write_append (by decide) rest
  unfold ofNamed? named
  rw [Der.only?_write hcontents]
  simp only [Option.bind_eq_bind, Option.bind_some, halgorithm,
    Der.only?_write hbits, Der.wholeBits?, namesAlgorithm_algorithmName,
    if_true, ofBare?_bare h]

/-- A key that the reader lets through is read back,
whatever stands after it. -/
theorem ofPem_write_append (h : key.isValid = true) (form : Form)
    (rest : Bytes) :
    ofPem (Pem.write (form.block key) ++ rest) = .ok key := by
  unfold ofPem
  rw [Pem.readFirst?_write_append form.isLabel_label]
  cases form with
  | bare => simp [Form.block, Form.label, ofBare?_bare h]
  | named => simp [Form.block, Form.label, ofNamed?_named h]

/-! ## Keys of every size -/

def ofSize (size : Nat) : PublicKey := ⟨1 <<< (8 * size - 1) + 1, 3⟩

theorem size_ofSize {size : Nat} (h : 1 ≤ size) :
    (ofSize size).size = size := by
  unfold PublicKey.size ofSize byteLength
  rw [bitLength_shiftLeft_add_one (by omega)]
  omega

theorem isValid_ofSize {size : Nat} (hpos : 1 ≤ size)
    (hle : size ≤ maxModulusBits / 8) :
    (ofSize size).isValid = true := by
  have hbound : maxModulusBits / 8 = 512 := by decide
  have hpow : 1 <<< (8 * size - 1) = 128 * 2 ^ (8 * size - 8) := by
    rw [Nat.one_shiftLeft,
      show 8 * size - 1 = 7 + (8 * size - 8) by omega, Nat.pow_add]
  have hone := Nat.one_le_two_pow (n := 8 * size - 8)
  have hmodulus : (ofSize size).modulus = 128 * 2 ^ (8 * size - 8) + 1 :=
    congrArg (· + 1) hpow
  have hexponent : (ofSize size).exponent = 3 := rfl
  rw [isValid_iff, hmodulus, hexponent]
  refine ⟨?_, by omega, by omega, by decide, by decide, by decide⟩
  rw [← hpow, bitLength_shiftLeft_add_one (by omega)]
  unfold maxModulusBits
  omega

/-- A key of every size up to the bound is let through, in both forms. -/
theorem ofPem_write_ofSize {size : Nat} (hpos : 1 ≤ size)
    (hle : size ≤ maxModulusBits / 8) (form : Form) :
    ofPem (Pem.write (form.block (ofSize size))) = .ok (ofSize size) := by
  have hfile := ofPem_write_append (isValid_ofSize hpos hle) form []
  rwa [List.append_nil] at hfile

/-! ## What a key encrypts -/

/-- What encrypting with a key does: everything or nothing, as the size
of the key decides. -/
structure SealsBySize (key : PublicKey) : Prop where
  longer : Oaep.overhead < key.size →
    (∃ block, key.sealer.checkedBlockSize = .ok block ∧ 1 ≤ block) ∧
    ∀ seeds data, ∃ body, key.sealer.encrypt seeds data = .ok body ∧
      body.length = data.length ⌈/⌉ (key.size - Oaep.overhead) * key.size
  equal : key.size = Oaep.overhead →
    key.sealer.checkedBlockSize = .ok 0 ∧
    ∀ seeds data, key.sealer.encrypt seeds data = .error (.halt .divisionByZero)
  shorter : key.size < Oaep.overhead →
    key.sealer.checkedBlockSize = .error .underflow ∧
    ∀ seeds data, key.sealer.encrypt seeds data = .error (.halt .underflow)

theorem sealsBySize (key : PublicKey) : key.SealsBySize where
  longer := by
    intro hsize
    have hpos : 0 < key.sealer.blockSize := Nat.sub_pos_of_lt hsize
    refine ⟨⟨_, if_pos (Nat.le_of_lt hsize), hpos⟩, fun seeds data => ?_⟩
    refine ⟨_, BlockSealer.encrypt_of_overhead_lt hsize seeds data, ?_⟩
    rw [BlockSealer.length_sealAll_of_forall fun _ _ _ => length_toBytes _ _,
      length_chunks hpos]
    rfl
  equal := by
    intro hsize
    refine ⟨?_, BlockSealer.encrypt_of_size_eq hsize⟩
    unfold BlockSealer.checkedBlockSize
    rw [show key.sealer.size = Oaep.overhead from hsize]
    rfl
  shorter := fun hsize =>
    ⟨if_neg (Nat.not_le_of_lt hsize), BlockSealer.encrypt_of_size_lt hsize⟩

/-- What is expected of a key: a block has room, and everything
can be encrypted. -/
structure CanEncrypt (key : PublicKey) : Prop where
  room : ∃ block, key.sealer.checkedBlockSize = .ok block ∧ 1 ≤ block
  encrypts : ∀ seeds data, ∃ body, key.sealer.encrypt seeds data = .ok body

theorem SealsBySize.canEncrypt_iff (h : key.SealsBySize) :
    key.CanEncrypt ↔ Oaep.overhead < key.size := by
  constructor
  · intro hcan
    obtain ⟨body, hbody⟩ := hcan.encrypts (fun _ => []) []
    rcases Nat.lt_trichotomy key.size Oaep.overhead with hlt | heq | hgt
    · rw [(h.shorter hlt).2] at hbody
      nomatch hbody
    · rw [(h.equal heq).2] at hbody
      nomatch hbody
    · exact hgt
  · intro hsize
    obtain ⟨hroom, hencrypts⟩ := h.longer hsize
    refine ⟨hroom, fun seeds data => ?_⟩
    obtain ⟨body, hbody, -⟩ := hencrypts seeds data
    exact ⟨body, hbody⟩

theorem deliver_of_encrypt_eq {σ : Type} {s : Seal}
    (hkey : s.sealer = some key.sealer) {reason : Halt}
    (h : ∀ data, key.sealer.encrypt s.seeds data = .error (.halt reason))
    (transport : Transport σ) (chunk : Batch) :
    deliver s transport chunk = pure (.error (.stopped reason)) := by
  have henclose : s.enclose chunk = .error (.halt reason) := by
    unfold Seal.enclose
    rw [hkey]
    simp only [h]
    rfl
  unfold deliver
  rw [henclose]

/-- Nothing is ever sent under the key: every delivery stops before that. -/
def StopsDeliveries (key : PublicKey) : Prop :=
  ∀ (σ : Type) (s : Seal), s.sealer = some key.sealer →
    ∃ reason, ∀ (transport : Transport σ) (chunk : Batch),
      deliver s transport chunk = pure (.error (.stopped reason))

theorem stopsDeliveries_of_size_le (hsize : key.size ≤ Oaep.overhead) :
    key.StopsDeliveries := by
  intro σ s hkey
  rcases Nat.lt_or_eq_of_le hsize with hlt | heq
  · have hstops := (key.sealsBySize.shorter hlt).2 s.seeds
    exact ⟨_, deliver_of_encrypt_eq hkey hstops⟩
  · have hstops := (key.sealsBySize.equal heq).2 s.seeds
    exact ⟨_, deliver_of_encrypt_eq hkey hstops⟩

/-- A key that is let through has from one byte to the bound.  It can encrypt
just when it is longer than the overhead of a block, and nothing is delivered
under a key that is not. -/
theorem canEncrypt_iff_overhead_lt {pem : Bytes} {key : PublicKey}
    (h : ofPem pem = .ok key) :
    (1 ≤ key.size ∧ key.size ≤ maxModulusBits / 8) ∧
      (key.CanEncrypt ↔ Oaep.overhead < key.size) ∧ key.SealsBySize ∧
      (key.size ≤ Oaep.overhead → key.StopsDeliveries) :=
  ⟨size_of_isValid (isValid_of_ofPem h), key.sealsBySize.canEncrypt_iff,
    key.sealsBySize, stopsDeliveries_of_size_le⟩

/-- One byte decides: the keys of 66 and 67 bytes are let through alike. -/
theorem canEncrypt_iff_overhead_lt_of_67 :
    (∃ key : PublicKey, key.size = 67 ∧
      ofPem (Pem.write (Form.named.block key)) = .ok key ∧
      key.CanEncrypt) ∧
    ∃ key : PublicKey, key.size = 66 ∧
      ofPem (Pem.write (Form.named.block key)) = .ok key ∧
      ¬ key.CanEncrypt := by
  have hroomy :
      ofPem (Pem.write (Form.named.block (ofSize 67))) = .ok (ofSize 67) :=
    ofPem_write_ofSize (by decide) (by decide) .named
  have hbare :
      ofPem (Pem.write (Form.named.block (ofSize 66))) = .ok (ofSize 66) :=
    ofPem_write_ofSize (by decide) (by decide) .named
  have hsize : (ofSize 67).size = 67 := size_ofSize (by decide)
  have hsize' : (ofSize 66).size = 66 := size_ofSize (by decide)
  obtain ⟨-, hcan, -⟩ := canEncrypt_iff_overhead_lt hroomy
  obtain ⟨-, hcannot, -⟩ := canEncrypt_iff_overhead_lt hbare
  rw [hsize] at hcan
  rw [hsize'] at hcannot
  exact ⟨⟨ofSize 67, hsize, hroomy, hcan.mpr (by decide)⟩,
    ofSize 66, hsize', hbare, fun hno => absurd (hcannot.mp hno) (by decide)⟩

/-- A file with a key of as many bytes as the overhead. -/
def overheadFile : Bytes :=
  Utf8.encode "-----BEGIN RSA PUBLIC KEY-----\n"
    ++ Utf8.encode
      "MEgCQwCAAAAAAAAAAAAAAAAAAAAAAAAAAAAAAAAAAAAAAAAAAAAAAAAAAAAAAAAA\n"
    ++ Utf8.encode "AAAAAAAAAAAAAAAAAAAAAAAAAAAAAAECAQM=\n"
    ++ Utf8.encode "-----END RSA PUBLIC KEY-----\n"

/-- Its key is let through, and whatever is encrypted is cut into
parts of no bytes. -/
theorem encrypt_with_overheadFile :
    ∃ key, ofPem overheadFile = .ok key ∧ key.sealer.checkedBlockSize = .ok 0 ∧
      ∀ seeds data,
        key.sealer.encrypt seeds data = .error (.halt .divisionByZero) := by
  have hsize : (ofSize 66).size = Oaep.overhead := size_ofSize (by decide)
  exact ⟨ofSize 66, by decide +kernel, (ofSize 66).sealsBySize.equal hsize⟩

end Rsa.PublicKey

end Telemetry
