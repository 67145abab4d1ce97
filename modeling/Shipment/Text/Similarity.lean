/-!
# Similar words

Two words are similar when they have many characters in common at nearly the
same places.  Characters match when they are equal and no further apart than
half the longer length, less one.  Each character matches at most once, and
matches are made from left to right.

With `m` matches in words of lengths `a` and `b`, of which `t` pairs are in the
wrong order, the similarity is the mean of `m / a`, `m / b` and `(m - t) / m`.
Words are similar from seven tenths on.
-/

namespace Shipment.Text

/-- Take the first match of a character whose place is in a window.  Gives the
marks of the other word with the match marked. -/
def takeMatch (c : Char) (low high : Nat) : (place : Nat) → List (Char × Bool) →
    Option (List (Char × Bool))
  | _, [] => none
  | place, (d, taken) :: rest =>
      if low ≤ place ∧ place < high ∧ c = d ∧ !taken then some ((d, true) :: rest)
      else (takeMatch c low high (place + 1) rest).map fun rest => (d, taken) :: rest

/-- Match the characters of a word from a place on.  Gives those that found a
match and the marks of the other word. -/
def matchFrom (range : Nat) : (place : Nat) → List Char → List (Char × Bool) →
    List Char × List (Char × Bool)
  | _, [], other => ([], other)
  | place, c :: cs, other =>
      match takeMatch c (place - range) (place + range + 1) 0 other with
      | some other =>
          let rest := matchFrom range (place + 1) cs other
          (c :: rest.1, rest.2)
      | none => matchFrom range (place + 1) cs other

/-- Whether two words are similar. -/
def similar (a b : List Char) : Bool :=
  let range := max a.length b.length / 2 - 1
  let found := matchFrom range 0 a (b.map fun c => (c, false))
  let left := found.1
  let right := (found.2.filter (·.2)).map (·.1)
  let m := left.length
  let t := ((left.zip right).filter fun pair => pair.1 != pair.2).length / 2
  let sum := m * m * b.length + m * m * a.length + (m - t) * a.length * b.length
  0 < m && 21 * (a.length * b.length * m) ≤ 10 * sum

example : similar "confg".toList "config".toList = true := by decide
example : similar "x".toList "config".toList = false := by decide

end Shipment.Text
