import Readings.Chart.Basic
import Readings.Derivation.Printer

/-! Charts as text: every set with its items, and the links that lead to each of them. -/

namespace Readings

def Link.render (grammar : Grammar) : Link → Except Fault String
  | .predicted => .ok "predict"
  | .scanned token => .ok ("scan " ++ toString token)
  | .completed split child => do
    return "complete " ++ (← grammar.rule child).name ++ " at " ++ toString split

def Entry.render (grammar : Grammar) (entry : Entry) : Except Fault String := do
  let links ← entry.links.mapM (Link.render grammar)
  return "  " ++ entry.item.describe grammar ++ "  [" ++ "; ".intercalate links ++ "]\n"

def ChartSet.render (grammar : Grammar) (tokens : Array Token) (position : Nat) (set : ChartSet) :
    Except Fault String := do
  let token :=
    if position = 0 then "" else " after " ++ Text.quote (Token.textAt tokens (position - 1))
  let entries ← set.entries.toList.mapM (Entry.render grammar)
  return "== set " ++ toString position ++ " (" ++ toString set.size ++ " items)" ++ token ++ "\n" ++
    String.join entries

def Chart.render (chart : Chart) (grammar : Grammar) (tokens : Array Token) : Except Fault String := do
  let sets ← chart.sets.toList.zipIdx.mapM fun (set, position) => set.render grammar tokens position
  return "chart for " ++ chart.grammar.render ++ " (" ++ toString chart.tokenCount ++ " tokens, " ++
    toString chart.totalItems ++ " items)\n" ++ String.join sets

end Readings
