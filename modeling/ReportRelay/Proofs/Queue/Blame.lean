import Mathlib.Tactic.SplitIfs
import ReportRelay.Queue.Store

/-!
# Errors that blame the settings

A store refuses statements for what its rows are, and for nothing that could be set differently: the only setting that
it sees is the limit of a load.
-/

namespace ReportRelay

/-- The error says that something is wrong with the settings. -/
def Error.BlamesSettings : Error → Prop
  | config _ | invalidLimit => True
  | _ => False

namespace Store

variable {store : Store} {chainId : String} {state : MsgState} {limit : Int} {selected : Row → Bool} {ids : List MsgId}
  {txHash : Option String} {e : Error}

theorem not_blames_of_load (hlimit : 1 ≤ limit) (h : store.load chainId state limit = .error e) :
    ¬e.BlamesSettings := by
  unfold load at h
  rw [if_neg (Int.not_lt.2 hlimit)] at h
  split_ifs at h
  cases h
  exact id

theorem not_blames_of_moveWhere (h : (store.moveWhere selected state txHash).1 = .error e) : ¬e.BlamesSettings := by
  unfold moveWhere at h
  dsimp only at h
  split_ifs at h
  all_goals
    cases h
    exact id

theorem not_blames_of_update (h : (store.update chainId ids state txHash).1 = .error e) : ¬e.BlamesSettings := by
  unfold update at h
  split_ifs at h
  · cases h
    exact id
  · split at h
    next hmove =>
      cases h
      exact not_blames_of_moveWhere (congrArg Prod.fst hmove)
    next =>
      split_ifs at h
      cases h
      exact id

end Store

end ReportRelay
