import RipInterpreter.Proofs.Syntax.Placement

namespace RipInterpreter.Syntax

variable {origin : String}

/-- The node and everything inside it stands in the text. -/
inductive Node.From (origin : String) : Node → Prop
  | intro {node : Node} (own : node.location.origin = origin)
    (inside : ∀ inner ∈ node.contents, inner.From origin) : From origin node

namespace Node

theorem From.own {node : Node} (written : node.From origin) : node.location.origin = origin := by
  cases written with
  | intro own _ => exact own

theorem From.inner {node inner : Node} (written : node.From origin) (inside : inner ∈ node.contents) :
    inner.From origin := by
  cases written with
  | intro _ contents => exact contents inner inside

theorem location_mem_places (node : Node) : node.location ∈ node.places := by
  cases node <;> exact List.mem_cons_self

theorem Stands.from {text : String} {node : Node} (stands : node.Stands origin text) :
    node.From origin := by
  induction stands with
  | @intro node places _ _ _ ih => exact .intro (places _ node.location_mem_places).named ih

end Node

/-- What is read from a text stands in it, and the module does, too. -/
theorem Module.from_of_text {text : String} {module : Module}
    (read : Module.ofText origin text = .ok module) :
    module.location.origin = origin ∧ ∀ statement ∈ module.statements, statement.From origin := by
  obtain ⟨own, statements⟩ := stands_of_text read
  exact ⟨own.named, fun statement listed => (statements statement listed).from⟩

end RipInterpreter.Syntax
