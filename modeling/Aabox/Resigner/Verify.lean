import Aabox.Lib.Prefixed
import Aabox.Resigner.Sign

/-!
The verification procedure of APK Signature Scheme v2, as its specification gives it: find the
signing block, parse the signers, check each signature and the digest of the rest of the file.
-/
namespace Aabox.Resigner.Verify
open Aabox.Lib

/-! ### Finding the block -/

structure SigningBlock where
  start : Nat
  cd_offset : Nat
  eocd_offset : Nat
  pairs : List (Nat × Bytes)
  deriving DecidableEq

/-- The end record, tried with comments of growing length. -/
def findEocd (apk : Bytes) : Option Nat :=
  if apk.length < 22 then none
  else
    ((List.range (min (apk.length - 22) 0xffff + 1)).find? fun comment_length =>
      let i := apk.length - 22 - comment_length
      slice apk i 4 = [0x50, 0x4b, 0x05, 0x06] ∧
        leValue (slice apk (i + 20) 2) = comment_length).map
      fun comment_length => apk.length - 22 - comment_length

def blockMagic : Bytes := "APK Sig Block 42".toList.map fun c => UInt8.ofNat c.toNat

/-- The block ends where the central directory starts, and the directory where the end record does.
-/
def findSigningBlock (apk : Bytes) : Option SigningBlock := do
  let eocd_offset ← findEocd apk
  let cd_size := leValue (slice apk (eocd_offset + 12) 4)
  let cd_offset := leValue (slice apk (eocd_offset + 16) 4)
  if cd_offset + cd_size ≠ eocd_offset ∨ cd_offset < 32 then none
  else if slice apk (cd_offset - 16) 16 ≠ blockMagic then none
  else
    let size := leValue (slice apk (cd_offset - 24) 8)
    if size < 24 ∨ cd_offset < size + 8 then none
    else
      let start := cd_offset - (size + 8)
      if leValue (slice apk start 8) ≠ size then none
      else do
        let entries ← items 8 (slice apk (start + 8) (size - 24))
        let pairs ← entries.mapM (takeInt 4)
        return { start, cd_offset, eocd_offset, pairs }

/-! ### Signers -/

structure SignerBlock where
  signed_data : Bytes
  digests : List (Nat × Bytes)
  certificates : List Bytes
  attributes : List Bytes
  signatures : List (Nat × Bytes)
  public_key : Bytes
  deriving DecidableEq

/-- An algorithm and its length-prefixed digest or signature. -/
def algorithmEntry (bs : Bytes) : Option (Nat × Bytes) := do
  let (algorithm, rest) ← takeInt 4 bs
  let (value, _) ← takePrefixed 4 rest
  return (algorithm, value)

def algorithmEntries (bs : Bytes) : Option (List (Nat × Bytes)) := do
  let entries ← items 4 bs
  entries.mapM algorithmEntry

def parseSigner (bs : Bytes) : Option SignerBlock := do
  let (signed_data, bs) ← takePrefixed 4 bs
  let (signatures, bs) ← takePrefixed 4 bs
  let (public_key, _) ← takePrefixed 4 bs
  let (digests, rest) ← takePrefixed 4 signed_data
  let (certificates, rest) ← takePrefixed 4 rest
  let (attributes, _) ← takePrefixed 4 rest
  return {
    signed_data
    digests := ← algorithmEntries digests
    certificates := ← items 4 certificates
    attributes := ← items 4 attributes
    signatures := ← algorithmEntries signatures
    public_key }

/-- The v2 block: a sequence of signers. -/
def parseSigners (v2 : Bytes) : Option (List SignerBlock) := do
  let (signers, _) ← takePrefixed 4 v2
  let blocks ← items 4 signers
  blocks.mapM parseSigner

/-! ### Digest and signature -/

/-- Chunks of 1 MiB, the last one shorter. -/
def chunks (region : Bytes) : List Bytes :=
  (List.range ((region.length + 0xfffff) / 0x100000)).map fun i => slice region (i * 0x100000) 0x100000

def chunkDigest (C : Sign.Crypto) (chunk : Bytes) : Bytes :=
  (C.sha256 ([0xa5] ++ leBytes 4 chunk.length ++ chunk)).val

/-- The file but its signing block, with the directory offset that of the block. -/
def contents (apk : Bytes) (b : SigningBlock) : List Bytes :=
  [apk.take b.start, slice apk b.cd_offset (b.eocd_offset - b.cd_offset),
    splice (apk.drop b.eocd_offset) 16 (leBytes 4 b.start)]

def contentDigest (C : Sign.Crypto) (apk : Bytes) (b : SigningBlock) : Bytes :=
  let all := (contents apk b).flatMap chunks
  (C.sha256 ([0x5a] ++ leBytes 4 all.length ++ all.flatMap (chunkDigest C))).val

/-- RSA PKCS#1 v1.5 with SHA-256, the one algorithm this verifier supports. -/
def supported : Nat := 0x0103

def verifySigner (C : Sign.Crypto) (content_digest : Bytes) (s : SignerBlock) : Bool :=
  match s.signatures.find? (·.1 = supported), s.digests.find? (·.1 = supported) with
  | some (_, signature), some (_, digest) =>
    C.verify s.public_key s.signed_data signature ∧
      s.digests.map (·.1) = s.signatures.map (·.1) ∧ digest = content_digest ∧
      s.certificates.head?.bind C.spki = some s.public_key
  | _, _ => false

/-- The signers of an accepted file; there is at least one, and each of them passes. -/
def verifyV2 (C : Sign.Crypto) (apk : Bytes) : Option (List SignerBlock) := do
  let b ← findSigningBlock apk
  let (_, v2) ← b.pairs.find? (·.1 = 0x7109871a)
  let signers ← parseSigners v2
  if signers ≠ [] ∧ signers.all (verifySigner C (contentDigest C apk b)) then return signers
  else none

end Aabox.Resigner.Verify
