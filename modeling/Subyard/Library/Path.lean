import Subyard.Library.Text

/-!
Slash-separated paths, read lexically.

* `clean`: the shortest path that means the same.
* `isAbs`, `containsControl`: what is asked of a path that is stored.
-/

open Text

namespace Path

/-- The elements of a path between its slashes. -/
def elements : Bytes → List Bytes
  | [] => [[]]
  | b :: bs =>
      if b = 47 then [] :: elements bs
      else
        match elements bs with
        | [] => [[b]]
        | element :: rest => (b :: element) :: rest

/-- One element more on the stack of those that are kept, the last on top. -/
def push (rooted : Bool) (stack : List Bytes) (element : Bytes) : List Bytes :=
  if element = [] ∨ element = str "." then stack
  else if element = str ".." then
    match stack with
    | [] => if rooted then [] else [element]
    | top :: rest => if top = str ".." then element :: stack else rest
  else element :: stack

def isAbs (path : Bytes) : Bool := path.head? = some 47

/-- `Clean`. -/
def clean (path : Bytes) : Bytes :=
  let kept := ((elements path).foldl (push (isAbs path)) []).reverse
  let joined := List.intercalate [47] kept
  if isAbs path then 47 :: joined
  else if joined = [] then str "." else joined

/-- A control character, in seven bits or in the two octets of U+0080 to U+009F.  No octet of
another character is among these, so that the text need not be cut into characters. -/
def containsControl : Bytes → Bool
  | [] => false
  | b :: bs =>
      b < 0x20 || b = 0x7F
        || (b = 0xC2 && bs.head?.any fun c => 0x80 ≤ c && c ≤ 0x9F)
        || containsControl bs

example : clean (str "/a//b/./../c/") = str "/a/c" := by decide

example : clean (str "a/../../b") = str "../b" := by decide

end Path
