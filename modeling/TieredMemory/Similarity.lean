import TieredMemory.Turn

/-!
# Similarity of embeddings and of sets

The cosine of the angle between two embeddings, zero where one of them is missing, empty, of another
length or of no length; and the share of common members of two sets among all their members.
-/

namespace TieredMemory

/-- The sum of the products of two embeddings, from left to right. -/
def dot (a b : Embedding) : Float := (a.zip b).foldl (fun s p => s + p.1 * p.2) 0

/-- The length of an embedding. -/
def norm (a : Embedding) : Float := (dot a a).sqrt

/-- The cosine of the angle between two embeddings. -/
def cosine (a b : Embedding) : Float :=
  if a.isEmpty || b.isEmpty || a.length != b.length then 0
  else if norm a == 0 || norm b == 0 then 0
  else dot a b / (norm a * norm b)

/-- The share of common members, for two lists taken as sets. -/
def jaccard (a b : List String) : Float :=
  let a := a.eraseDups
  let b := b.eraseDups
  let common := (a.filter b.contains).length
  let all := a.length + b.length - common
  if all = 0 then 0 else Float.ofNat common / Float.ofNat all

end TieredMemory
