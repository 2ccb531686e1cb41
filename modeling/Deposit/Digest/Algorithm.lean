import Deposit.Digest.Md5
import Deposit.Digest.Sha1
import Deposit.Digest.Sha2
import Deposit.Digest.Sha3
import Deposit.Digest.Blake2

set_option autoImplicit false
set_option relaxedAutoImplicit false

/-!
The digest algorithms that can be asked for, by name: those that are there on every platform, and
those that one platform has beside them, of which nothing is known but their names and what they
make of some bytes.
-/

namespace Deposit.Digest

/-- A digest algorithm. -/
inductive Algorithm where
  | md5
  | sha1
  | sha224
  | sha256
  | sha384
  | sha512
  | sha3_224
  | sha3_256
  | sha3_384
  | sha3_512
  | shake_128
  | shake_256
  | blake2b
  | blake2s
  | additional (name : String) (digest : Bytes → Bytes)

namespace Algorithm

/-- The algorithms that are there on every platform. -/
def guaranteed : List Algorithm :=
  [md5, sha1, sha224, sha256, sha384, sha512, sha3_224, sha3_256, sha3_384, sha3_512, shake_128,
    shake_256, blake2b, blake2s]

def name : Algorithm → String
  | md5 => "md5"
  | sha1 => "sha1"
  | sha224 => "sha224"
  | sha256 => "sha256"
  | sha384 => "sha384"
  | sha512 => "sha512"
  | sha3_224 => "sha3_224"
  | sha3_256 => "sha3_256"
  | sha3_384 => "sha3_384"
  | sha3_512 => "sha3_512"
  | shake_128 => "shake_128"
  | shake_256 => "shake_256"
  | blake2b => "blake2b"
  | blake2s => "blake2s"
  | additional name _ => name

/-- The guaranteed algorithm of a name, written exactly so. -/
def ofName? (s : String) : Option Algorithm :=
  guaranteed.find? fun a => a.name == s

/-- Whether digests are as long as is asked for, and there is none unless a length is asked for. -/
def isExtendable : Algorithm → Bool
  | shake_128 | shake_256 => true
  | _ => false

def blockHash : Algorithm → BlockHash
  | md5 => Md5.md5
  | sha1 => Sha1.sha1
  | sha224 => Sha2.sha224
  | sha256 => Sha2.sha256
  | sha384 => Sha2.sha384
  | sha512 => Sha2.sha512
  | sha3_224 => Sha3.sha3_224
  | sha3_256 => Sha3.sha3_256
  | sha3_384 => Sha3.sha3_384
  | sha3_512 => Sha3.sha3_512
  | shake_128 => Sha3.shake_128
  | shake_256 => Sha3.shake_256
  | blake2b => Blake2.blake2b
  | blake2s => Blake2.blake2s
  | additional _ digest => .whole digest

def digest (a : Algorithm) (bs : Bytes) : String :=
  Bytes.toHex (a.blockHash.digest bs)

end Algorithm

/-- What a platform has beside the guaranteed algorithms: names, and what goes by them. -/
structure Library where
  additional : List (String × (Bytes → Bytes)) := []

namespace Library

/-- The algorithm that goes by a name. -/
def algorithm? (l : Library) (name : String) : Option Algorithm :=
  (Algorithm.ofName? name).or
    ((l.additional.find? fun e => e.1 == name).map fun e => .additional e.1 e.2)

end Library

end Deposit.Digest
