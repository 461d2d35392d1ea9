import Tepegoz.KnownHosts
import Tepegoz.Lib.Lines

namespace Tepegoz

open Lines

/-- A host name without brackets and white space. -/
def PlainHost (hostname : List Char) : Prop :=
  ∀ c ∈ hostname, c ≠ '[' ∧ c ≠ ']' ∧ isWhitespace c = false

instance (hostname : List Char) : Decidable (PlainHost hostname) :=
  List.decidableBAll _ hostname

section Token

variable {host host' : List Char} {port port' : Nat}

/-- The host ends at the first closing bracket. -/
theorem PlainHost.takeWhile (h : PlainHost host) (rest : List Char) :
    (host ++ ']' :: rest).takeWhile (· ≠ ']') = host := by
  rw [List.takeWhile_append_of_pos (fun c hc => by simpa using (h c hc).2.1)]
  simp

end Token

section Forget

variable {host : List Char} {port : Nat}

end Forget

end Tepegoz
