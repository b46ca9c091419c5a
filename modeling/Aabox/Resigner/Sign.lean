import Aabox.Lib.Edits
import Aabox.Lib.Loop

/-! APK Signature Scheme v2: the digest, the signer block, the signing block, the signed file. -/
namespace Aabox.Resigner.Sign
open Aabox.Lib

/-- "APK Sig Block 42". -/
def APK_SIG_BLOCK_MAGIC : Bytes :=
  [0x41, 0x50, 0x4b, 0x20, 0x53, 0x69, 0x67, 0x20, 0x42, 0x6c, 0x6f, 0x63, 0x6b, 0x20, 0x34, 0x32]

def APK_SIGNATURE_SCHEME_V2_BLOCK_ID : Nat := 0x7109871a
def VERITY_PADDING_BLOCK_ID : Nat := 0x42726577
def SIG_ALG_RSA_PKCS1_V1_5_SHA256 : Nat := 0x0103
def ANDROID_COMMON_PAGE_ALIGNMENT_BYTES : Nat := 4096
def CONTENT_DIGESTED_CHUNK_MAX_SIZE_BYTES : Nat := 1024 * 1024

def EOCD_MAGIC : Bytes := [0x50, 0x4b, 0x05, 0x06]

/-- What is taken from `ring` and `x509-cert`. -/
structure Crypto where
  KeyPair : Type
  sha256 : Bytes → { digest : Bytes // digest.length = 32 }
  /-- RSA PKCS#1 v1.5 over SHA-256. -/
  sign : KeyPair → Bytes → Except String Bytes
  /-- Does the public key accept the signature over the message? -/
  verify : Bytes → Bytes → Bytes → Bool
  /-- The SubjectPublicKeyInfo of a certificate. -/
  spki : Bytes → Option Bytes

/-- A loaded identity: the key in the signer block is the one in the certificate. -/
structure Signer (C : Crypto) where
  key_pair : C.KeyPair
  cert_der : Bytes
  public_key_spki_der : Bytes
  spki_eq : C.spki cert_der = some public_key_spki_der

variable {C : Crypto}

/-- The private key is the one the certificate's public key checks. -/
def Signer.Matches (signer : Signer C) : Prop :=
  ∀ data sig, C.sign signer.key_pair data = .ok sig →
    C.verify signer.public_key_spki_der data sig = true

/-! ### ZIP structure -/

structure ZipLayout where
  cd_offset : Nat
  cd_size : Nat
  eocd_offset : Nat

/-- An end record whose comment reaches exactly the end of the file. -/
def isEocd (apk : Bytes) (i : Nat) : Bool :=
  slice apk i 4 = EOCD_MAGIC ∧ i + 22 + leValue (slice apk (i + 20) 2) = apk.length

def locateZipLayout (apk : Bytes) : Except String ZipLayout :=
  let max_back := min apk.length (22 + 65535)
  let scan_start := apk.length - max_back
  match (List.range' scan_start (apk.length - 21 - scan_start)).reverse.find? (isEocd apk) with
  | none => .error "EOCD not found"
  | some eocd_offset => .ok {
      cd_offset := leValue (slice apk (eocd_offset + 16) 4)
      cd_size := leValue (slice apk (eocd_offset + 12) 4)
      eocd_offset }

/-! ### Chunked SHA-256 -/

def chunkCount (len : Nat) : Nat :=
  if len = 0 then 0
  else (len + CONTENT_DIGESTED_CHUNK_MAX_SIZE_BYTES - 1) / CONTENT_DIGESTED_CHUNK_MAX_SIZE_BYTES

/-- One turn of the loop over a region: its offset, and the digests so far. -/
def chunkStep (C : Crypto) (region : Bytes) (s : Nat × Bytes) : (Nat × Bytes) ⊕ Bytes :=
  if s.1 < region.length then
    let n := min CONTENT_DIGESTED_CHUNK_MAX_SIZE_BYTES (region.length - s.1)
    .inl (s.1 + n, s.2 ++ (C.sha256 ([0xa5] ++ leBytes 4 n ++ slice region s.1 n)).val)
  else .inr s.2

/-- Every turn takes a byte or more off the region, so the fuel is never short. -/
def digestRegion (C : Crypto) (chunk_digests region : Bytes) : Bytes :=
  (loop (chunkStep C region) (region.length + 1) (0, chunk_digests)).getD chunk_digests

def computeChunkedSha256 (C : Crypto) (before_cd central_dir eocd_modified : Bytes) : Bytes :=
  let num_chunks :=
    chunkCount before_cd.length + chunkCount central_dir.length + chunkCount eocd_modified.length
  let chunk_digests := [0x5a] ++ leBytes 4 num_chunks
  (C.sha256 ([before_cd, central_dir, eocd_modified].foldl (digestRegion C) chunk_digests)).val

/-! ### Length-prefixed builders -/

def encodeLpElements (elements : List Bytes) : Bytes :=
  elements.flatMap fun e => leBytes 4 e.length ++ e

def encodeLpIntLpBytesPairs (pairs : List (Nat × Bytes)) : Bytes :=
  pairs.flatMap fun (id, b) => leBytes 4 (8 + b.length) ++ leBytes 4 id ++ leBytes 4 b.length ++ b

/-! ### Signer block and signing block -/

def buildV2BlockBody (signer : Signer C) (content_digest : Bytes) : Except String Bytes := do
  let digests_seq := encodeLpIntLpBytesPairs [(SIG_ALG_RSA_PKCS1_V1_5_SHA256, content_digest)]
  let certs_seq := encodeLpElements [signer.cert_der]
  let additional_attrs := []
  let signed_data := encodeLpElements [digests_seq, certs_seq, additional_attrs, []]
  let signature ← C.sign signer.key_pair signed_data
  let signatures_seq := encodeLpIntLpBytesPairs [(SIG_ALG_RSA_PKCS1_V1_5_SHA256, signature)]
  let signer_block := encodeLpElements [signed_data, signatures_seq, signer.public_key_spki_der]
  let signers_seq := encodeLpElements [signer_block]
  return encodeLpElements [signers_seq]

/-- The padding that brings a block of `total` bytes to whole pages; a pair takes 12 or more. -/
def paddingSize (total : Nat) : Nat :=
  let padding :=
    ANDROID_COMMON_PAGE_ALIGNMENT_BYTES - total % ANDROID_COMMON_PAGE_ALIGNMENT_BYTES
  if padding < 12 then padding + ANDROID_COMMON_PAGE_ALIGNMENT_BYTES else padding

def paddingPair (padding : Nat) : Bytes :=
  leBytes 8 (padding - 8) ++ leBytes 4 VERITY_PADDING_BLOCK_ID ++
    List.replicate (padding - 8 - 4) 0

def buildSigningBlock (pairs : List (Nat × Bytes)) : Bytes :=
  let blocks_size := (pairs.map fun (_, v) => 8 + 4 + v.length).sum
  let header_footer := 8 + 8 + 16
  let unpadded := header_footer + blocks_size
  let (padding_pair, total) :=
    if unpadded % ANDROID_COMMON_PAGE_ALIGNMENT_BYTES ≠ 0 then
      (paddingPair (paddingSize unpadded), unpadded + paddingSize unpadded)
    else ([], unpadded)
  let outer_size_excl := leBytes 8 (total - 8)
  outer_size_excl ++
    pairs.flatMap (fun (id, v) => leBytes 8 (4 + v.length) ++ leBytes 4 id ++ v) ++
    padding_pair ++ outer_size_excl ++ APK_SIG_BLOCK_MAGIC

/-! ### Entry point -/

def padToPage (bs : Bytes) : Bytes :=
  let page := ANDROID_COMMON_PAGE_ALIGNMENT_BYTES
  let pad_size := if bs.length % page ≠ 0 then page - bs.length % page else 0
  bs ++ List.replicate pad_size 0

def signApkV2 (apk_bytes : Bytes) (signer : Signer C) : Except String Bytes := do
  let layout ← locateZipLayout apk_bytes
  let cd_start := layout.cd_offset
  let cd_end := cd_start + layout.cd_size
  if layout.eocd_offset < cd_end then
    let eocd_offset := layout.eocd_offset
    throw s!"central directory extends past EOCD: cd_end={cd_end} eocd_offset={eocd_offset}"
  let central_dir := slice apk_bytes cd_start layout.cd_size
  let eocd := apk_bytes.drop layout.eocd_offset
  let before_cd_padded := padToPage (apk_bytes.take cd_start)
  -- the digest is over an end record that points at the signing block
  let eocd_for_digest := splice eocd 16 (leBytes 4 before_cd_padded.length)
  let content_digest := computeChunkedSha256 C before_cd_padded central_dir eocd_for_digest
  let v2_block_body ← buildV2BlockBody signer content_digest
  let signing_block := buildSigningBlock [(APK_SIGNATURE_SCHEME_V2_BLOCK_ID, v2_block_body)]
  -- the one written points at the directory, past the signing block
  let final_cd_offset := before_cd_padded.length + signing_block.length
  let patched_eocd := splice eocd 16 (leBytes 4 final_cd_offset)
  return before_cd_padded ++ signing_block ++ central_dir ++ patched_eocd

end Aabox.Resigner.Sign
