import Readings.Analysis.Basic

/-! Many requests against one grammar, each analysed on its own. -/

namespace Readings

def Analyzer.analyzeAll (analyzer : Analyzer) (requests : List (List Token)) :
    Except Fault (List Analysis) :=
  requests.mapM fun tokens => analyzer.analyze tokens none

/-- The reports made while `total` requests are analysed: how many are done, and of how many. -/
def batchProgress (total : Nat) : List (Nat × Nat) :=
  (List.range total).map fun done => (done + 1, total)

structure BatchSummary where
  total : Nat
  succeeded : Nat
  failed : Nat
  needsClarification : Nat
deriving Repr, DecidableEq, Inhabited

def BatchSummary.ofAnalyses (analyses : List Analysis) : BatchSummary :=
  { total := analyses.length
    succeeded := analyses.countP (·.isSuccess)
    failed := analyses.countP fun analysis => !analysis.isSuccess
    needsClarification := analyses.countP (·.needsClarification) }

end Readings
