namespace TopicConsumer

/-- A token: its own number, then those of the tokens it derives from. -/
abbrev Token := List Nat

structure Tokens where
  fresh : Nat := 0
  cancelled : List Nat := []
deriving DecidableEq, Repr

namespace Tokens

/-- A new token that derives from another one; from none if that is empty. -/
def derive (tokens : Tokens) (parent : Token) : Token × Tokens :=
  (tokens.fresh :: parent, { tokens with fresh := tokens.fresh + 1 })

def cancel (tokens : Tokens) (token : Token) : Tokens :=
  match token with
  | [] => tokens
  | id :: _ => { tokens with cancelled := id :: tokens.cancelled }

def isCancelled (tokens : Tokens) (token : Token) : Bool := token.any (tokens.cancelled.contains ·)

theorem isCancelled_cancel {tokens : Tokens} {token other : Token}
    (h : tokens.isCancelled other = true) : (tokens.cancel token).isCancelled other = true := by
  unfold isCancelled at h ⊢
  obtain ⟨id, hm, hc⟩ := List.any_eq_true.mp h
  refine List.any_eq_true.mpr ⟨id, hm, ?_⟩
  cases token with
  | nil => exact hc
  | cons t _ =>
    have := List.contains_iff_mem.mp hc
    simp [cancel, this]

theorem isCancelled_self {tokens : Tokens} {token : Token} (h : token ≠ []) :
    (tokens.cancel token).isCancelled token = true := by
  cases token with
  | nil => exact absurd rfl h
  | cons id _ => simp [cancel, isCancelled]

end Tokens

end TopicConsumer
