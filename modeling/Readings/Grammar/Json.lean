import Readings.Grammar.Build
import Readings.Json.Decode

/-! Tokens, terminals and grammar drafts written in JSON. -/

namespace Readings

def TextRange.ofJson? (value : Json) : Option TextRange := do
  let [start, stop] ← value.record? ["start", "end"] | none
  let start ← Json.required? Json.toWord? start
  let stop ← Json.required? Json.toWord? stop
  if inOrder : start ≤ stop then return ⟨start, stop, inOrder⟩ else none

def Token.ofJson? (value : Json) : Option Token := do
  let [text, kind, tags, span, merged] ←
    value.record? ["text", "kind", "tags", "span", "merged"] | none
  let text ← Json.required? Json.toText? text
  let kind ← Json.required? Json.toText? kind
  let tags ← Json.fieldOr? [] (Json.toList? Json.toText?) tags
  let span ← Json.required? TextRange.ofJson? span
  let merged ← Json.fieldOr? false Json.toBool? merged
  return { text, kind, tags, span, merged }

def Terminal.ofJson? (value : Json) : Option Terminal := do
  match ← value.choice? with
  | ("word", text) => return .word (← text.toText?)
  | ("kind", name) => return .kind (← name.toText?)
  | ("tag", name) => return .tag (← name.toText?)
  | _ => none

def ElementDraft.ofJson? (value : Json) : Option ElementDraft := do
  match ← value.choice? with
  | ("nt", name) => return .nonTerminal (← name.toText?)
  | ("word", text) => return .word (← text.toText?)
  | ("kind", name) => return .kind (← name.toText?)
  | ("tag", name) => return .tag (← name.toText?)
  | _ => none

def RuleDraft.ofJson? (value : Json) : Option RuleDraft := do
  let [name, lhs, rhs, priority, action, description] ←
    value.record? ["name", "lhs", "rhs", "priority", "action", "description"] | none
  let name ← Json.fieldOr? none (Json.toOption? Json.toText?) name
  let lhs ← Json.required? Json.toText? lhs
  let rhs ← Json.fieldOr? [] (Json.toList? ElementDraft.ofJson?) rhs
  let priority ← Json.fieldOr? 0 Json.toSigned? priority
  let action ← Json.fieldOr? none (Json.toOption? Json.toText?) action
  let description ← Json.fieldOr? "" Json.toText? description
  return { name, lhs, rhs, priority, action, description }

def GrammarDraft.ofJson? (value : Json) : Option GrammarDraft := do
  let [name, version, start, rules] ←
    value.record? ["name", "version", "start", "rules"] | none
  let name ← Json.required? Json.toText? name
  let version ← Json.required? Json.toText? version
  let start ← Json.required? Json.toText? start
  let rules ← Json.required? (Json.toList? RuleDraft.ofJson?) rules
  return { key := ⟨name, version⟩, start := some start, rules }

end Readings
