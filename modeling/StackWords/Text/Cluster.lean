import StackWords.Text.ClusterRole

/-! # Clusters

A text is cut into clusters, the characters that a reader sees. Whether a
character goes on a cluster depends on that cluster alone.
-/
namespace StackWords.Text

/-- Whether a cluster ends with a linked consonant, so that another one goes on it. What stands
between may extend the consonant, but the non-joiner undoes the link. Here and below the last
character of a cluster comes first. -/
def endsLinked (cluster : List Char) : Bool :=
  let isPart (c : Char) :=
    (clusterRole c = .extender && c.toNat ≠ 0x200C) || clusterRole c = .joiner
  (cluster.takeWhile isPart).any isLinker &&
    (cluster.dropWhile isPart).head?.any (clusterRole · = .consonant)

def endsJoined : List Char → Bool
  | [] => false
  | last :: rest =>
    clusterRole last = .joiner &&
      (rest.dropWhile (clusterRole · = .extender)).head?.any (clusterRole · = .pictograph)

def endsHalfFlag (cluster : List Char) : Bool :=
  (cluster.takeWhile (clusterRole · = .regional)).length % 2 = 1

def goesOn (cluster : List Char) (c : Char) : Bool :=
  match cluster with
  | [] => false
  | last :: _ =>
    let front := clusterRole last
    let back := clusterRole c
    if front.isSolitary || back.isSolitary then front = .carriageReturn && back = .lineFeed
    else
      back.isAttached || front = .prepended || front.spells back ||
        (back = .consonant && endsLinked cluster) ||
        (back = .pictograph && endsJoined cluster) ||
        (back = .regional && endsHalfFlag cluster)

/-- The clusters of a text behind the cluster that it may go on. -/
def clustersFrom (cluster : List Char) : List Char → List (List Char)
  | [] => [cluster.reverse]
  | c :: cs =>
    if goesOn cluster c then clustersFrom (c :: cluster) cs
    else cluster.reverse :: clustersFrom [c] cs

def clusters : List Char → List (List Char)
  | [] => []
  | c :: cs => clustersFrom [c] cs

end StackWords.Text
