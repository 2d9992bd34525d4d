import Hermes.Lib.Merging
import Hermes.Spec.KnowledgeGraph

/-!
# The semantic memory of agents (`kernel/agent.py`)

`AgentRuntime.remember` and `AgentRuntime.recall`: what an agent learns is kept in a graph of its
own, in an engine that others use as well. A fact is a dictionary whose missing keys have their
defaults here, and an empty `relation` is none. `Memory` says what the graph is for, without ids.
Left out: wall-clock stamps.
-/

namespace Hermes

/-- The `relation` of a fact. -/
structure FactRelation where
  /-- `str(rel.get("target"))`. -/
  target : String := "None"
  type : String := ""
  relationType : String := "knows"

structure Fact where
  name : Option String
  type : String := "custom"
  properties : Dict String Value := ∅
  source : String := "agent"
  confidence : ℚ := 1
  relation : Option FactRelation := none

/-- `EntityType(value)`. -/
def EntityType.ofValue (value : String) : Except Exc EntityType :=
  match [EntityType.person, .org, .concept, .event, .document, .custom].find? (·.value = value) with
  | some t => .ok t
  | none => .error ⟨.valueError, pyRepr value ++ " is not a valid EntityType"⟩

/-- `RelationType(value)`. -/
def RelationType.ofValue (value : String) : Except Exc RelationType :=
  match [RelationType.knows, .partOf, .causes, .dependsOn, .similarTo, .derivedFrom].find?
      (·.value = value) with
  | some t => .ok t
  | none => .error ⟨.valueError, pyRepr value ++ " is not a valid RelationType"⟩

/-! ## Facts in a graph -/

/-- The entity of a fact. -/
def Fact.entity (fact : Fact) (entityId name : String) (type : EntityType) : Entity :=
  { entityId, name, type
    properties := fact.properties
    source := fact.source
    confidence := fact.confidence }

namespace GraphEngine

variable (P : GraphEnv)

/-- The entity that a relation leads to. It is created if no entity has its name. -/
def factTarget (graphId : String) (rel : FactRelation) (e : GraphEngine) :
    Except Exc Entity × GraphEngine :=
  match e.getGraph graphId with
  | none => (.error ⟨.attributeError, "'NoneType' object has no attribute 'entities'"⟩, e)
  | some g =>
    match g.entities.values.find? fun x => P.lower x.name = P.lower rel.target with
    | some x => (.ok x, e)
    | none =>
      let (entityId, e) := e.draw P
      match EntityType.ofValue (if rel.type = "" then "custom" else rel.type) with
      | .error x => (.error x, e)
      | .ok type => e.addEntity P graphId { entityId, name := rel.target, type }

/-- The relation of a fact whose entity is stored. -/
def addFactRelation (graphId : String) (stored : Entity) (rel : FactRelation) (e : GraphEngine) :
    Except Exc Relation × GraphEngine :=
  match factTarget P graphId rel e with
  | (.error x, e) => (.error x, e)
  | (.ok target, e) =>
    let (relationId, e) := e.draw P
    match RelationType.ofValue rel.relationType with
    | .error x => (.error x, e)
    | .ok type => e.addRelation graphId
      { relationId, sourceId := stored.entityId, targetId := target.entityId, type }

/-- The entity of a fact, and then its relation. -/
def addFact (graphId : String) (fact : Fact) (e : GraphEngine) : Except Exc Entity × GraphEngine :=
  let (entityId, e) := e.draw P
  match fact.name with
  | none => (.error ⟨.keyError, "'name'"⟩, e)
  | some name =>
    match EntityType.ofValue fact.type with
    | .error x => (.error x, e)
    | .ok type =>
      match e.addEntity P graphId (fact.entity entityId name type) with
      | (.error x, e) => (.error x, e)
      | (.ok stored, e) =>
        match fact.relation with
        | none => (.ok stored, e)
        | some rel =>
          match addFactRelation P graphId stored rel e with
          | (.error x, e) => (.error x, e)
          | (.ok _, e) => (.ok stored, e)

end GraphEngine

/-! ## The runtime -/

/-- What an `AgentRuntime` has of the memories of its agents. -/
structure AgentMemory where
  kg : Option GraphEngine := none
  defaultGraphs : Dict String String := ∅

namespace AgentMemory

/-- The graph of the agent, which is created if it has none. -/
def graphFor (P : GraphEnv) (agentId : String) (kg : GraphEngine)
    (defaultGraphs : Dict String String) : String × GraphEngine × Dict String String :=
  match defaultGraphs.get? agentId with
  | some graphId => (graphId, kg, defaultGraphs)
  | none =>
    let (g, kg) := kg.createGraph P ("agent:" ++ agentId)
    (g.graphId, kg, defaultGraphs.insert agentId g.graphId)

def remember (P : GraphEnv) (agentId : String) (fact : Fact) (m : AgentMemory) :
    Except Exc Entity × AgentMemory :=
  match m.kg with
  | none => (.error ⟨.runtimeError, "AgentRuntime has no knowledge_graph wired"⟩, m)
  | some kg =>
    let (graphId, kg, defaultGraphs) := graphFor P agentId kg m.defaultGraphs
    let (r, kg) := kg.addFact P graphId fact
    (r, { kg := some kg, defaultGraphs })

/-- `recall`. -/
def recallEntities (P : QueryEnv) (agentId query : String) (m : AgentMemory) :
    Except Exc (List Entity) × AgentMemory :=
  match m.kg, m.defaultGraphs.get? agentId with
  | some kg, some graphId =>
    let (queryId, kg) := kg.draw P.toGraphEnv
    let parameters : Dict String Value := (∅ : Dict String Value).insert "name" (.str query)
    let (r, kg) := kg.query P graphId { queryId, graphId, queryType := "entity_by_name", parameters }
    (r.map fun answer => answer.entities.filterMap fun eid =>
      (kg.getGraph graphId).bind (·.entities.get? eid), { m with kg := some kg })
  | _, _ => (.ok [], m)

end AgentMemory

/-- What happens to a runtime and its engine. Others use the engine too, and a new runtime takes
the place of one that ended. -/
inductive MemoryStep where
  | remember (agentId : String) (fact : Fact)
  | recallEntities (agentId query : String)
  | graph (op : GraphOp)
  | restart

namespace AgentMemory

def step (P : QueryEnv) (m : AgentMemory) : MemoryStep → AgentMemory
  | .remember agentId fact => (m.remember P.toGraphEnv agentId fact).2
  | .recallEntities agentId query => (m.recallEntities P agentId query).2
  | .graph op => { m with kg := m.kg.map (·.apply P.toGraphEnv op) }
  | .restart => { m with defaultGraphs := ∅ }

end AgentMemory

/-! ## What the graph is for -/

/-- What is known under a name. -/
structure Recollection where
  name : String
  type : EntityType
  properties : Dict String Value := ∅
  source : String := "unknown"
  confidence : ℚ := 1

/-- More is known under a name. Its first spelling and its first type stay. -/
def Recollection.refresh (x y : Recollection) : Recollection :=
  { x with
    properties := x.properties.update y.properties
    confidence := max x.confidence y.confidence
    source := if y.source = "" then x.source else y.source }

/-- What a fact says of its name. -/
def Fact.recollection (fact : Fact) (name : String) (type : EntityType) : Recollection :=
  { name, type
    properties := fact.properties
    source := fact.source
    confidence := fact.confidence }

/-- Two names and how the first is related to the second. -/
structure Link where
  source : String
  target : String
  type : RelationType
  deriving DecidableEq, Repr

structure Memory where
  recollections : List Recollection := []
  links : List Link := []

namespace Memory

variable (lower : String → String)

def note (m : Memory) (r : Recollection) : Memory :=
  { m with
    recollections := Merging.note (fun x : Recollection => lower x.name) Recollection.refresh
      m.recollections r }

/-- What is known under a name, in whatever case. -/
def about (m : Memory) (name : String) : Option Recollection :=
  m.recollections.find? fun x => lower x.name = lower name

/-- What a relation leads to. It is noted if nothing is known under its name. -/
def target (rel : FactRelation) (m : Memory) : Except Exc Recollection × Memory :=
  match m.about lower rel.target with
  | some x => (.ok x, m)
  | none => match EntityType.ofValue (if rel.type = "" then "custom" else rel.type) with
    | .error x => (.error x, m)
    | .ok type => (.ok { name := rel.target, type }, m.note lower { name := rel.target, type })

/-- The relation of a fact, from what is known under its name. -/
def relate (source : Recollection) (rel : FactRelation) (m : Memory) : Except Exc Unit × Memory :=
  match m.target lower rel with
  | (.error x, m) => (.error x, m)
  | (.ok target, m) => match RelationType.ofValue rel.relationType with
    | .error x => (.error x, m)
    | .ok type => (.ok (), { m with links := m.links ++ [⟨source.name, target.name, type⟩] })

/-- A fact is learned: what is known under its name then, or why it is not learned as a whole. -/
def learn (fact : Fact) (m : Memory) : Except Exc Recollection × Memory :=
  match fact.name with
  | none => (.error ⟨.keyError, "'name'"⟩, m)
  | some name => match EntityType.ofValue fact.type with
    | .error x => (.error x, m)
    | .ok type =>
      let r := fact.recollection name type
      let stored := ((m.about lower name).map (·.refresh r)).getD r
      let m := m.note lower r
      match fact.relation with
      | none => (.ok stored, m)
      | some rel => match m.relate lower stored rel with
        | (.error x, m) => (.error x, m)
        | (.ok _, m) => (.ok stored, m)

/-- The first ten whose names hold the query, in whatever case. -/
def answer (query : String) (m : Memory) : List Recollection :=
  (m.recollections.filter fun x => (lower query).toList <:+: (lower x.name).toList).take 10

/-- The memory of an agent that learned the facts one after the other. -/
def ofFacts (facts : List Fact) : Memory := facts.foldl (fun m fact => (m.learn lower fact).2) {}

end Memory

/-- The facts of an agent that its runtime knows of: a new runtime knows of none. -/
def MemoryStep.facts (agentId : String) (facts : List Fact) : MemoryStep → List Fact
  | .remember a fact => if a = agentId then facts ++ [fact] else facts
  | .restart => []
  | _ => facts

end Hermes
