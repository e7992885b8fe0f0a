import Circulation.Digest.Sha256

/-!
# Entity tags

The tag of a snapshot is the digest of its figures. A zero byte follows each figure but the height,
which is the last, so that adjacent figures cannot run into each other.

## Main definitions

* `Circulation.ETag.bytes` — the bytes whose digest is the tag.
* `Circulation.ETag.ofFigures` — the tag of the figures of a snapshot.
-/

namespace Circulation.ETag

/-- The figures of a snapshot, each but the height followed by a zero byte. -/
def bytes (denom total circulating nonCirculating : String) (height : Int) : List UInt8 :=
  [denom, total, circulating, nonCirculating].flatMap (fun s => s.toUTF8.toList ++ [0]) ++
    (toString height).toUTF8.toList

/-- The tag of the figures of a snapshot. -/
def ofFigures (denom total circulating nonCirculating : String) (height : Int) : String :=
  Sha256.hexDigest (bytes denom total circulating nonCirculating height)

end Circulation.ETag
