/-!
# Latin-1

The encoding in which every byte is a character of its own, with the byte as its code point.
-/

namespace CodeScope
namespace Latin1

/-- The characters of a byte string. -/
def decode (bytes : List UInt8) : List Char :=
  bytes.map fun byte => Char.ofNat byte.toNat

end Latin1
end CodeScope
