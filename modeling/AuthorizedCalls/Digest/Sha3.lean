import AuthorizedCalls.Chunks
import AuthorizedCalls.Digest.Keccak
import AuthorizedCalls.Text.Hex

namespace AuthorizedCalls.Digest.Sha3

/-- How many bytes of a message are taken in between two permutations. -/
def rate : Nat := 136

/-- What is put after a message to make its length a multiple of the rate: the domain bits and a
one at the front, a one at the end. -/
def padding (length : Nat) : List UInt8 :=
  match rate - length % rate with
  | 0 | 1 => [0x86]
  | n + 2 => 0x06 :: (List.replicate n 0 ++ [0x80])

/-- The word that eight bytes spell, least significant byte first. -/
def word (bytes : List UInt8) : UInt64 :=
  bytes.foldr (fun b w => (w <<< 8) ||| b.toUInt64) 0

/-- The bytes of a word, least significant first. -/
def bytes (w : UInt64) : List UInt8 :=
  [0, 8, 16, 24, 32, 40, 48, 56].map fun (shift : UInt64) => (w >>> shift).toUInt8

def absorb (s : Keccak.State) (block : List UInt8) : Keccak.State :=
  let words := ((chunks 8 block).map word).toArray
  Keccak.permute (Vector.ofFn fun i => s.get i ^^^ words.getD i.val 0)

def digest (message : List UInt8) : List UInt8 :=
  let blocks := chunks rate (message ++ padding message.length)
  let s := blocks.foldl absorb Keccak.zero
  [0, 1, 2, 3].flatMap fun x => bytes (Keccak.lane s x 0)

def hex (text : String) : String :=
  String.ofList
    ('0' :: 'x' :: (digest text.toUTF8.toList).flatMap fun b => Text.Hex.digits 2 b.toNat)

end AuthorizedCalls.Digest.Sha3
