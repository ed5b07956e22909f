import StackWords.Console.Dialogue
import StackWords.Text.Cluster

/-! # Replies from a text

When no terminal is there to edit lines, replies are read from a text. A reply
goes on over line ends until it is a command or leaves nothing open.
-/
namespace StackWords.Console.Pipe

/-- A text that is read cluster by cluster: its characters, and the sizes of its clusters in
bytes, both last first. -/
structure Draft where
  written : List Char := []
  sizes : List Nat := []

/-- Adds a cluster, or takes back the last one if it is a backspace. A size is kept in one byte:
of a cluster that takes more, what is over a multiple of 256 bytes is taken back. -/
def Draft.add (draft : Draft) (cluster : List Char) : Draft :=
  if cluster = ['\x08'] then
    { written := Text.dropBytes (draft.sizes.headD 0) draft.written, sizes := draft.sizes.tail }
  else
    { written := cluster.reverse ++ draft.written
      sizes := Text.byteLength cluster % 256 :: draft.sizes }

/-- A text without backspaces: each takes back the cluster in front of it. -/
def erase (cs : List Char) : List Char :=
  ((Text.clusters cs).foldl Draft.add {}).written.reverse

/-- A line and its ending, which the last line of a text may lack. -/
def splitEnding (line : List Char) : List Char × List Char :=
  match line.reverse with
  | '\n' :: '\r' :: rest => (rest.reverse, ['\r', '\n'])
  | '\n' :: rest => (rest.reverse, ['\n'])
  | _ => (line, [])

/-- Adds a line to what has been read for a reply. The outcome is a reply, or what has been read
with the line ending put back. -/
def feed (read line : List Char) : Except (List Char) Reply :=
  let (content, ending) := splitEnding line
  let text := erase (read ++ content)
  if text.head? = some '.' ∨ Token.isComplete (String.ofList text) then
    .ok (.line (String.ofList text))
  else .error (text ++ ending)

def lines : List Char → List (List Char)
  | [] => []
  | c :: cs =>
    if c = '\n' then [c] :: lines cs
    else Text.extendFirst c (lines cs)

/-- The replies in the lines of a text. A reply that is not complete at the end is dropped. -/
def repliesIn (read : List Char) : List (List Char) → List Reply
  | [] => []
  | line :: rest =>
    match feed read line with
    | .ok reply => reply :: repliesIn [] rest
    | .error read => repliesIn read rest

def replies (text : String) : List Reply := repliesIn [] (lines text.toList)

end StackWords.Console.Pipe
