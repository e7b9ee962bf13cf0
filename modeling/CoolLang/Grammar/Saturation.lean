/-!
Saturation: a round is repeated until it changes nothing, at most a given number of times. Where every
round that changes something adds to a bounded weight, a number of rounds no smaller than the bound is
enough, and the result is unchanged by one more round (`round_saturate`).
-/

namespace CoolLang

def saturate {α : Type} [DecidableEq α] (round : α → α) : Nat → α → α
  | 0, value => value
  | rounds + 1, value =>
      let next := round value
      if next = value then value else saturate round rounds next

variable {α : Type} [DecidableEq α]

/-- What every round keeps, saturation keeps. -/
theorem saturate_preserves (round : α → α) (keeps : α → Prop)
    (step : ∀ value, keeps value → keeps (round value)) (rounds : Nat) (value : α)
    (start : keeps value) : keeps (saturate round rounds value) := by
  induction rounds generalizing value with
  | zero => exact start
  | succ rounds ih =>
      unfold saturate
      dsimp only
      split
      · exact start
      · exact ih (round value) (step value start)

theorem round_saturate (round : α → α) (keeps : α → Prop) (weight : α → Nat) (limit : Nat)
    (step : ∀ value, keeps value → keeps (round value))
    (grows : ∀ value, keeps value → round value ≠ value → weight value < weight (round value))
    (bounded : ∀ value, keeps value → weight value ≤ limit)
    (rounds : Nat) (value : α) (start : keeps value) (enough : limit ≤ rounds + weight value) :
    round (saturate round rounds value) = saturate round rounds value := by
  induction rounds generalizing value with
  | zero =>
      unfold saturate
      by_cases same : round value = value
      · exact same
      · have larger := grows value start same
        have := bounded (round value) (step value start)
        omega
  | succ rounds ih =>
      unfold saturate
      dsimp only
      split
      · assumption
      · rename_i changed
        have larger := grows value start changed
        exact ih (round value) (step value start) (by omega)

end CoolLang
