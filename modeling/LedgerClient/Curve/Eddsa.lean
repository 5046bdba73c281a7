import LedgerClient.Curve.Edwards
import LedgerClient.Digest.Sha2

/-!
# Signatures over the curve

A secret seed of 32 bytes is stretched to a scalar and a nonce key.  A signature is the point `R`
of a nonce and a scalar `S`; it is accepted if `S` is less than the order of the generator and
`[S]B - [k]A`, written down, gives the bytes of `R` back.
-/

namespace LedgerClient.Curve

/-- The number of a digest modulo the order. -/
def digestScalar (message : Bytes) : Nat :=
  Bytes.toNatLE (Digest.sha512.digest message) % order

/-- The secret scalar of a seed's digest: a multiple of eight between `2 ^ 254` and `2 ^ 255`. -/
def secretScalar (seedDigest : Bytes) : Nat :=
  let n := Bytes.toNatLE (seedDigest.take 32) % Nat.pow 2 254
  Nat.pow 2 254 + (n - n % 8)

/-- The public key of a seed. -/
def publicKey (seed : Bytes) : Bytes :=
  (Point.base.smul (secretScalar (Digest.sha512.digest seed))).encode

/-- The 64 bytes of a signature by the key of `seed`, whose public half is `key`. -/
def signWith (seed key message : Bytes) : Bytes :=
  let h := Digest.sha512.digest seed
  let r := digestScalar (h.drop 32 ++ message)
  let point := (Point.base.smul r).encode
  let k := digestScalar (point ++ key ++ message)
  point ++ Bytes.ofNatLE 32 ((r + k * secretScalar h) % order)

/-- Whether the 64 bytes of `signature` are a signature of `message` by `key`, whose point is
`a`. -/
def verifyWith (a : Point) (key message signature : Bytes) : Bool :=
  let r := signature.take 32
  let s := Bytes.toNatLE (signature.drop 32)
  s < order &&
    let k := digestScalar (r ++ key ++ message)
    ((Point.base.smul s).add (a.neg.smul k)).encode == r

end LedgerClient.Curve
