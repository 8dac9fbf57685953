import ShapeTyping.Proofs.Construction.Obtained
import ShapeTyping.Proofs.Session.Text

/-!
# Histories

A history starts with nothing, draws variables and functions, and makes values of what it has made
before: by constructors, drafts, accessors, substitutions, and folds with methods of any kind. What
has been made is never changed, so all of it is in one ledger, and identity determines content.
-/

namespace ShapeTyping

namespace Session

variable {ledger : Ledger}

/-- A variable as a value. -/
def Item.ofVariable : Variable → Item
  | .lexical named => .typeVar named
  | .global named => .globalVar named
  | .hole placeholder => .hole placeholder

/-- A node as a value. -/
def Item.ofNode : Node → Item
  | .extent value => .extent value
  | .type value => .type value
  | .relation value => .relation value

theorem Item.stored_ofVariable {occurrence : Variable} :
    (ofVariable occurrence).Stored ledger ↔ ledger.KnowsVariable occurrence := by
  cases occurrence <;> rfl

/-- What is held, and what can be read off it at any depth. -/
inductive Shows (held : Item → Prop) : Item → Prop
  | self {item : Item} (here : held item) : Shows held item
  | operand {label : Label} {op : ExtentOp} {left right operand : Extent}
      (outer : Shows held (.extent (.binary label op left right))) (mem : operand ∈ [left, right]) :
      Shows held (.extent operand)
  | shapeVar {label : Label} {shapeVar : ShapeVar}
      (outer : Shows held (.extent (.var label shapeVar))) : Shows held (.shapeVar shapeVar)
  | dimension {type : Ty} {extent : Extent} (outer : Shows held (.type type))
      (mem : extent ∈ type.extents) : Shows held (.extent extent)
  | occurrence {type : Ty} {occurrence : Variable} (outer : Shows held (.type type))
      (mem : occurrence ∈ type.occurrences) : Shows held (.ofVariable occurrence)
  | child {type child : Ty} (outer : Shows held (.type type)) (mem : child ∈ type.children) :
      Shows held (.type child)
  | constraint {type : Ty} {relation : Relation} (outer : Shows held (.type type))
      (mem : relation ∈ type.constraints) : Shows held (.relation relation)
  | arg {relation : Relation} {arg : Ty} (outer : Shows held (.relation relation))
      (mem : arg ∈ relation.args) : Shows held (.type arg)
  | function {relation : Relation} (outer : Shows held (.relation relation)) :
      Shows held (.function relation.fn)
  | attrs {relation : Relation} (outer : Shows held (.relation relation)) :
      Shows held (.attrs relation.attrs)
  | binding {substitution : Substitution} {id : Nat} {type : Ty}
      (outer : Shows held (.substitution substitution))
      (found : substitution.lookup id = some type) : Shows held (.type type)

/-- What can be read off stored values is stored. -/
theorem Shows.stored {held : Item → Prop} (stored : ∀ item, held item → item.Stored ledger)
    {item : Item} (shows : Shows held item) : item.Stored ledger := by
  induction shows with
  | self here => exact stored _ here
  | @operand _ _ left right operand _ mem induction =>
      have operands : left.Stored ledger ∧ right.Stored ledger := induction.2
      rcases List.mem_pair.mp mem with rfl | rfl
      · exact operands.1
      · exact operands.2
  | shapeVar _ induction => exact induction.2
  | dimension _ mem induction =>
      obtain ⟨-, -, extents, -, -, -⟩ := induction
      exact extents _ mem
  | occurrence _ mem induction =>
      obtain ⟨-, occurrences, -, -, -, -⟩ := induction
      exact Item.stored_ofVariable.mpr (occurrences _ mem)
  | child _ mem induction => exact Ty.Stored.part induction (List.mem_append_left _ mem)
  | constraint _ mem induction => exact Ty.Stored.relation induction mem
  | arg _ mem induction => exact induction.2 _ mem
  | function _ induction => exact induction.1.2.1
  | attrs => trivial
  | binding _ found induction => exact induction _ _ found

end Session

section Parts

open Session

variable {ledger : Ledger}

/-- The values that a part of a function type is given as. -/
def FunctionPart.items : FunctionPart → List Item
  | arg type | result type => [.type type]
  | args types => types.map .type
  | param typeVar => [.typeVar typeVar]
  | constraint relation => [.relation relation]

/-- The values that a part of a call is given as. -/
def CallPart.items : CallPart → List Item
  | callee type | arg type => [.type type]

/-- The values that a part of a relation is given as. -/
def RelationPart.items : RelationPart → List Item
  | fn function => [.function function]
  | arg type => [.type type]
  | inputCount _ => []
  | attrs bag => [.attrs bag]

theorem FunctionPart.drafted_of_items {part : FunctionPart}
    (stored : ∀ item ∈ part.items, item.Stored ledger) : part.Drafted ledger := by
  cases part with
  | arg type | result type => exact .stored (stored _ List.mem_cons_self)
  | args types => exact fun type mem => .stored (stored _ (List.mem_map_of_mem mem))
  | param typeVar => exact stored _ List.mem_cons_self
  | constraint relation => exact Or.inl (stored _ List.mem_cons_self)

theorem CallPart.drafted_of_items {part : CallPart}
    (stored : ∀ item ∈ part.items, item.Stored ledger) : part.Drafted ledger := by
  cases part with
  | callee type | arg type => exact .stored (stored _ List.mem_cons_self)

theorem RelationPart.drafted_of_items {part : RelationPart}
    (stored : ∀ item ∈ part.items, item.Stored ledger) : part.Drafted ledger := by
  cases part with
  | fn function => exact stored _ List.mem_cons_self
  | arg type => exact .stored (stored _ List.mem_cons_self)
  | inputCount count | attrs bag => trivial

/-- A new type without dimensions is drafted when all that it is made of is stored. -/
theorem Ty.drafted_of_contents {type : Ty} (new : type.label = none)
    (occurrences : ∀ occurrence ∈ type.occurrences, ledger.KnowsVariable occurrence)
    (no_extents : type.extents = [])
    (contents : ∀ node ∈ (Node.type type).contents, (Item.ofNode node).Stored ledger) :
    type.Drafted ledger := by
  simp only [Node.contents, List.forall_mem_append, List.forall_mem_map] at contents
  obtain ⟨children, relations⟩ := contents
  refine .new new occurrences (by simp [no_extents]) (by simp [no_extents])
    (fun relation mem => Or.inl (relations relation mem)) ?_
  rw [parts, List.forall_mem_append, List.forall_mem_flatMap]
  exact ⟨fun child mem => .stored (children child mem),
    fun relation mem arg arg_mem => .stored ((relations relation mem).2 arg arg_mem)⟩

section Step

variable {σ : Type} {methods : Methods σ} {holds : σ → Prop}

/-- One step of a fold whose methods answer with stored values makes a draft. -/
theorem Methods.superType_drafted {type : Ty} (stored : type.Stored ledger)
    (children : ∀ child ∈ type.children, Yields (methods.foldType child) holds fun answer =>
      answer.Stored ledger)
    (relations : ∀ relation ∈ type.constraints, Yields (methods.foldRelation relation) holds
      fun answer => answer.Stored ledger) :
    Yields (methods.superType type) holds fun result => result.Drafted ledger := by
  have step : Yields (methods.superType type) holds fun result => result = type ∨
      (result.label = none ∧ result.occurrences = type.occurrences ∧ result.extents = []) ∧
        ∀ node ∈ (Node.type result).contents, (Item.ofNode node).Stored ledger :=
    superType_yields children relations
  refine step.imp fun result outcome => ?_
  rcases outcome with rfl | ⟨⟨new, same_occurrences, no_extents⟩, contents⟩
  · exact .stored stored
  · refine Ty.drafted_of_contents new (fun occurrence mem => ?_) no_extents contents
    rw [same_occurrences] at mem
    exact (Ty.Drafted.stored stored).occurrence mem

theorem Methods.superRelation_drafted {relation : Relation} (stored : relation.Stored ledger)
    (args : ∀ arg ∈ relation.args, Yields (methods.foldType arg) holds fun answer =>
      answer.Stored ledger) :
    Yields (methods.superRelation relation) holds fun result => result.Drafted ledger := by
  have step : Yields (methods.superRelation relation) holds fun result => result = relation ∨
      (result.label = none ∧ result.fn = relation.fn ∧ result.inputCount = relation.inputCount ∧
        result.args.length = relation.args.length) ∧
        ∀ node ∈ (Node.relation result).contents, (Item.ofNode node).Stored ledger :=
    superRelation_yields args
  refine step.imp fun result outcome => ?_
  rcases outcome with rfl | ⟨⟨new, same_fn, same_inputs, same_arity⟩, contents⟩
  · exact Or.inl stored
  · rw [Node.contents, List.forall_mem_map] at contents
    refine Or.inr ⟨⟨new, ?_⟩, fun arg mem => .stored (contents arg mem)⟩
    rw [Relation.Fits, same_fn, same_inputs, same_arity]
    exact stored.1.2

end Step

end Parts

namespace Session

/-- One operation on what is held; new nodes of what it makes have no number yet. -/
inductive Makes (held : Item → Prop) : Item → Prop
  | shown {item : Item} (shows : Shows held item) : Makes held item
  | int (value : Int64) (dtype : DataType) : Makes held (.extent (.int none value dtype))
  | float (value : Binary64) (dtype : DataType) : Makes held (.extent (.float none value dtype))
  | shapeVar {shapeVar : ShapeVar} (here : held (.shapeVar shapeVar)) :
      Makes held (.extent (.var none shapeVar))
  | binary (op : ExtentOp) {left right : Extent} (left_held : held (.extent left))
      (right_held : held (.extent right)) : Makes held (.extent (.binary none op left right))
  | wildcard : Makes held (.extent (.any none))
  | size {label : Label} {tensorType : TensorType}
      (here : held (.type (.tensor label tensorType))) : Makes held (.extent tensorType.size)
  | tensor {shape : List Extent} {dtype : DataType} {type : Ty}
      (shape_held : ∀ extent ∈ shape, held (.extent extent))
      (made : Ty.makeTensor shape dtype = .ok type) : Makes held (.type type)
  | scalar (dtype : DataType) : Makes held (.type (.scalar dtype))
  | occurrence {occurrence : Variable} (here : held (.ofVariable occurrence)) :
      Makes held (.type (.var none occurrence))
  | call {callee : Ty} {args : List Ty} (callee_held : held (.type callee))
      (args_held : ∀ arg ∈ args, held (.type arg)) : Makes held (.type (.call none callee args))
  | func {params : List TypeVar} {args : List Ty} {result : Ty} {constraints : List Relation}
      (params_held : ∀ param ∈ params, held (.typeVar param))
      (args_held : ∀ arg ∈ args, held (.type arg)) (result_held : held (.type result))
      (constraints_held : ∀ relation ∈ constraints, held (.relation relation)) :
      Makes held (.type (.func none params args result constraints))
  | tuple {fields : List Ty} (fields_held : ∀ field ∈ fields, held (.type field)) :
      Makes held (.type (.tuple none fields))
  | ref {value : Ty} (here : held (.type value)) : Makes held (.type (.ref none value))
  | any : Makes held (.type (.any none))
  | relation {fn : RelationFn} {args : List Ty} {inputCount : Int64} {attrs : Attrs}
      {relation : Relation} (fn_held : held (.function fn))
      (args_held : ∀ arg ∈ args, held (.type arg))
      (made : Relation.make fn args inputCount attrs = .ok relation) :
      Makes held (.relation relation)
  | functionDraft {parts : List FunctionPart} {type : Ty}
      (given : ∀ part ∈ parts, ∀ item ∈ part.items, held item)
      (built : (parts.foldl FunctionDraft.add {}).build = .ok type) : Makes held (.type type)
  | callDraft {parts : List CallPart} {type : Ty}
      (given : ∀ part ∈ parts, ∀ item ∈ part.items, held item)
      (built : (parts.foldl CallDraft.add {}).build = .ok type) : Makes held (.type type)
  | refDraft {types : List Ty} {type : Ty} (given : ∀ type ∈ types, held (.type type))
      (built : (types.foldl RefDraft.add {}).build = .ok type) : Makes held (.type type)
  | relationDraft {parts : List RelationPart} {relation : Relation}
      (given : ∀ part ∈ parts, ∀ item ∈ part.items, held item)
      (built : (parts.foldl RelationDraft.add {}).build = .ok relation) :
      Makes held (.relation relation)
  | attrs (attrs : Attrs) : Makes held (.attrs attrs)
  | empty : Makes held (.substitution .empty)
  | bind {substitution : Substitution} (id : Nat) {type : Ty}
      (substitution_held : held (.substitution substitution)) (type_held : held (.type type)) :
      Makes held (.substitution (substitution.bind id type))
  | resolve {substitution : Substitution} {type : Ty}
      (substitution_held : held (.substitution substitution)) (type_held : held (.type type)) :
      Makes held (.type (substitution.resolve type))
  | apply {substitution : Substitution} {type : Ty}
      (substitution_held : held (.substitution substitution)) (type_held : held (.type type)) :
      Makes held (.type (substitution.apply type))
  | superType {σ : Type} {methods : Methods σ} {holds : σ → Prop} {type result : Ty}
      {state state' : σ} (type_held : held (.type type))
      (children : ∀ child ∈ type.children, Yields (methods.foldType child) holds fun answer =>
        held (.type answer))
      (relations : ∀ relation ∈ type.constraints, Yields (methods.foldRelation relation) holds
        fun answer => held (.relation answer))
      (start : holds state) (ran : methods.superType type state = some (result, state')) :
      Makes held (.type result)
  | superRelation {σ : Type} {methods : Methods σ} {holds : σ → Prop} {relation result : Relation}
      {state state' : σ} (relation_held : held (.relation relation))
      (args : ∀ arg ∈ relation.args, Yields (methods.foldType arg) holds fun answer =>
        held (.type answer))
      (start : holds state) (ran : methods.superRelation relation state = some (result, state')) :
      Makes held (.relation result)

/-- An operation on stored values makes a draft. -/
theorem Makes.drafted {ledger : Ledger} {held : Item → Prop}
    (stored : ∀ item, held item → item.Stored ledger) {item : Item} (makes : Makes held item) :
    item.Drafted ledger := by
  have types : ∀ {types : List Ty}, (∀ type ∈ types, held (.type type)) →
      ∀ type ∈ types, type.Drafted ledger :=
    fun all type mem => .stored (stored _ (all type mem))
  cases makes with
  | shown shows =>
      have kept := shows.stored stored
      cases item with
      | extent | type => exact .stored kept
      | relation => exact Or.inl kept
      | _ => exact kept
  | int value dtype => exact .int value dtype
  | float value dtype => exact .float value dtype
  | shapeVar here => exact .var (stored _ here)
  | binary op left_held right_held =>
      exact .binary op (.stored (stored _ left_held)) (.stored (stored _ right_held))
  | wildcard => exact .any
  | size here =>
      have drafted : (Ty.tensor _ _).Drafted ledger := .stored (stored _ here)
      exact size_drafted (drafted.shape rfl)
  | tensor shape_held made =>
      exact Ty.makeTensor_drafted made fun extent mem => .stored (stored _ (shape_held extent mem))
  | scalar dtype => exact Ty.drafted_tensor (List.forall_mem_nil _) (List.forall_mem_nil _)
  | occurrence here => exact Ty.drafted_var (Item.stored_ofVariable.mp (stored _ here))
  | call callee_held args_held =>
      exact Ty.drafted_call (.stored (stored _ callee_held)) (types args_held)
  | func params_held args_held result_held constraints_held =>
      exact Ty.drafted_func (fun param mem => stored _ (params_held param mem)) (types args_held)
        (.stored (stored _ result_held))
        fun relation mem => Or.inl (stored _ (constraints_held relation mem))
  | tuple fields_held => exact Ty.drafted_tuple (types fields_held)
  | ref here => exact Ty.drafted_ref (.stored (stored _ here))
  | any => exact Ty.drafted_any
  | relation fn_held args_held made =>
      exact Relation.make_drafted made (stored _ fn_held) (types args_held)
  | functionDraft given built =>
      exact (FunctionDraft.drafted_of_parts fun part mem => FunctionPart.drafted_of_items
        fun item item_mem => stored item (given part mem item item_mem)).build built
  | callDraft given built =>
      exact (CallDraft.drafted_of_parts fun part mem => CallPart.drafted_of_items
        fun item item_mem => stored item (given part mem item item_mem)).build built
  | refDraft given built => exact (RefDraft.drafted_of_types (types given)).build built
  | relationDraft given built =>
      exact (RelationDraft.drafted_of_parts fun part mem => RelationPart.drafted_of_items
        fun item item_mem => stored item (given part mem item item_mem)).build built
  | attrs attrs => trivial
  | empty => exact Substitution.stored_empty
  | bind id substitution_held type_held =>
      exact Substitution.Stored.bind (stored _ substitution_held) id (stored _ type_held)
  | resolve substitution_held type_held =>
      exact .stored (Substitution.Stored.follow (stored _ substitution_held) _ (stored _ type_held))
  | apply substitution_held type_held =>
      exact Substitution.Stored.applyWithin (stored _ substitution_held) _ (stored _ type_held)
  | superType type_held children relations start ran =>
      have step := Methods.superType_drafted (stored _ type_held)
        (fun child mem => (children child mem).imp fun _ => stored _)
        (fun relation mem => (relations relation mem).imp fun _ => stored _)
      exact (step _ _ _ start ran).2
  | superRelation relation_held args start ran =>
      have step := Methods.superRelation_drafted (stored _ relation_held) fun arg mem =>
        (args arg mem).imp fun _ => stored _
      exact (step _ _ _ start ran).2

/-- Actions that draw a variable or a function. -/
inductive Draws : Mint Item → Prop
  | shapeVar (name : String) (dtype : DataType) :
      Draws (do return .shapeVar (← ShapeVar.fresh name dtype))
  | typeVar (name : String) (kind : Kind) : Draws (do return .typeVar (← TypeVar.fresh name kind))
  | globalVar (name : String) (kind : Kind) :
      Draws (do return .globalVar (← TypeVar.fresh name kind))
  | hole (kind : Kind) : Draws (do return .hole (← Hole.fresh kind))
  | function (name : String) (rule : Rule) :
      Draws (do return .function (← RelationFn.fresh name rule))

theorem Draws.keeps {action : Mint Item} (draws : Draws action) :
    action.Keeps ledger fun after item => item.Stored after := by
  cases draws with
  | shapeVar name dtype =>
      exact (ShapeVar.keeps_fresh name dtype).bind fun _ _ _ known => Mint.keeps_pure known
  | typeVar name kind =>
      exact (TypeVar.keeps_fresh .lexical (fun _ => rfl) name kind).bind fun _ _ _ known =>
        Mint.keeps_pure known
  | globalVar name kind =>
      exact (TypeVar.keeps_fresh .global (fun _ => rfl) name kind).bind fun _ _ _ known =>
        Mint.keeps_pure known
  | hole kind => exact (Hole.keeps_fresh kind).bind fun _ _ _ known => Mint.keeps_pure known
  | function name rule =>
      exact (RelationFn.keeps_fresh name rule).bind fun _ _ _ known => Mint.keeps_pure known

/-- What a history has made so far, and the identities that it has yet to draw. -/
structure World where
  /-- Everything made so far. -/
  items : List Item := []
  /-- The identities to come. -/
  supply : Supply := {}

/-- The world after an action, whose value is kept. -/
def World.after (world : World) (action : Mint Item) : World where
  items := (action.run world.supply).1 :: world.items
  supply := (action.run world.supply).2

/-- The worlds that a history can lead to; an operation that fails leaves the world as it is. -/
inductive Reached : World → Prop
  | start : Reached {}
  | draw {world : World} {action : Mint Item} (reached : Reached world) (draws : Draws action) :
      Reached (world.after action)
  | make {world : World} {item : Item} (reached : Reached world)
      (makes : Makes (· ∈ world.items) item) : Reached (world.after item.register)

/-- All that has been made is stored in the ledger of the identities drawn so far. -/
def World.StoredIn (ledger : Ledger) (world : World) : Prop :=
  world.supply = ledger.supply ∧ ∀ item ∈ world.items, item.Stored ledger

/-- An action that stores its value keeps everything stored. -/
theorem World.StoredIn.after {world : World} (stored : world.StoredIn ledger)
    {action : Mint Item} (keeps : action.Keeps ledger fun after item => item.Stored after) :
    ∃ after, (world.after action).StoredIn after := by
  obtain ⟨after, later, supply_eq, item_stored⟩ := keeps
  refine ⟨after, ?_, ?_⟩
  · rw [World.after, stored.1, supply_eq]
  · rw [World.after, stored.1, List.forall_mem_cons]
    exact ⟨item_stored, fun item mem => (stored.2 item mem).mono later⟩

theorem Reached.exists_ledger {world : World} (reached : Reached world) :
    ∃ ledger, world.StoredIn ledger := by
  induction reached with
  | start => exact ⟨⟨[], [], [], []⟩, rfl, List.forall_mem_nil _⟩
  | draw _ draws induction =>
      obtain ⟨ledger, stored⟩ := induction
      exact stored.after draws.keeps
  | make _ makes induction =>
      obtain ⟨ledger, stored⟩ := induction
      exact stored.after (makes.drafted stored.2).keeps_register

/-- Everything that is held in a slot at some time of a session. -/
def Kept (commands : List Command) (item : Item) : Prop :=
  ∃ (earlier : List Command) (slot : String),
    earlier <+: commands ∧ (State.run {} earlier).slots[slot]? = some item

theorem exists_ledger_of_run (commands : List Command) :
    ∃ ledger : Ledger, (State.run {} commands).supply = ledger.supply ∧
      ∀ item, Kept commands item → item.Stored ledger := by
  -- What was kept before the last command stays stored, whatever the command does to the slots.
  have along : ∃ ledger : Ledger, (State.run {} commands).supply = ledger.supply ∧
      ∀ earlier, earlier <+: commands → Slots.Stored ledger (State.run {} earlier).slots := by
    induction commands using List.reverseRecOn with
    | nil =>
        obtain ⟨ledger, supply_eq, stored⟩ := sound_start
        refine ⟨ledger, supply_eq, fun earlier before => ?_⟩
        rw [List.prefix_nil.mp before]
        exact stored
    | append_singleton commands command induction =>
        obtain ⟨ledger, supply_eq, stored⟩ := induction
        have last : State.run {} (commands ++ [command]) =
            ((State.run {} commands).step command).2 := List.foldl_append
        obtain ⟨after, later, supply_eq', stored'⟩ :=
          exists_ledger_of_step supply_eq (stored commands List.prefix_rfl) command
        refine ⟨after, last ▸ supply_eq', fun earlier before => ?_⟩
        rcases List.prefix_concat_iff.mp before with rfl | before
        · exact last ▸ stored'
        · exact fun slot item found => (stored earlier before slot item found).mono later
  obtain ⟨ledger, supply_eq, stored⟩ := along
  refine ⟨ledger, supply_eq, fun item kept => ?_⟩
  obtain ⟨earlier, slot, before, found⟩ := kept
  exact stored earlier before slot item found

/-- Identity determines content in what is held, and equal values have the same text. -/
structure Identified (held : Item → Prop) (supply : Supply) : Prop where
  occurrences : supply.typeVar ≤ UInt64.size → ∀ left right : Variable,
    Shows held (.ofVariable left) → Shows held (.ofVariable right) →
      left.id.toUInt64 = right.id.toUInt64 → left = right
  shapeVars : supply.shapeVar ≤ UInt64.size → ∀ left right : ShapeVar,
    Shows held (.shapeVar left) → Shows held (.shapeVar right) →
      left.id.toUInt64 = right.id.toUInt64 → left = right
  extents : ∀ left right : Extent, Shows held (.extent left) → Shows held (.extent right) →
    (left == right) = true → left.render = right.render
  types : ∀ left right : Ty, Shows held (.type left) → Shows held (.type right) →
    (left == right) = true → ∀ colors, left.print colors = right.print colors
  relations : ∀ left right : Relation, Shows held (.relation left) →
    Shows held (.relation right) → (left == right) = true →
      ∀ colors, left.print colors = right.print colors

/-- Places in a list that is not too long are told apart by 64 bits. -/
theorem eq_of_toUInt64 {α : Type} {items : List α} {place place' : Nat} {left right : α}
    (small : items.length ≤ UInt64.size) (found : items[place]? = some left)
    (found' : items[place']? = some right) (same : place.toUInt64 = place'.toUInt64) :
    left = right := by
  have below : place < items.length := (List.getElem?_eq_some_iff.mp found).1
  have below' : place' < items.length := (List.getElem?_eq_some_iff.mp found').1
  have word : place.toUInt64.toNat = place := UInt64.toNat_ofNat_of_lt' (below.trans_le small)
  have word' : place'.toUInt64.toNat = place' := UInt64.toNat_ofNat_of_lt' (below'.trans_le small)
  have same_place : place = place' := by rw [← word, same, word']
  exact eq_of_getElem? found found' same_place

theorem identified_of_stored {held : Item → Prop} {supply : Supply}
    (supply_eq : supply = ledger.supply) (stored : ∀ item, held item → item.Stored ledger) :
    Identified held supply := by
  subst supply_eq
  constructor
  case occurrences =>
    intro small left right shows shows' same
    have known := Item.stored_ofVariable.mp (shows.stored stored)
    have known' := Item.stored_ofVariable.mp (shows'.stored stored)
    exact eq_of_toUInt64 small known known' same
  case shapeVars =>
    intro small left right shows shows' same
    exact eq_of_toUInt64 small (shows.stored stored) (shows'.stored stored) same
  case extents =>
    intro left right shows shows' equal
    exact Extent.Stored.render_eq_of_beq (shows.stored stored) (shows'.stored stored) equal
  case types =>
    intro left right shows shows' equal colors
    exact Ty.Stored.print_eq_of_beq (shows.stored stored) (shows'.stored stored) equal colors
  case relations =>
    intro left right shows shows' equal colors
    exact Relation.Stored.print_eq_of_beq (shows.stored stored) (shows'.stored stored) equal colors

/-- In every history, and at any time of every session, identity determines content, and equal
values have the same text with colours on or off. -/
theorem identity_determines_content :
    (∀ world, Reached world → Identified (· ∈ world.items) world.supply) ∧
      ∀ commands, Identified (Kept commands) (State.run {} commands).supply := by
  constructor
  · intro world reached
    obtain ⟨ledger, supply_eq, stored⟩ := reached.exists_ledger
    exact identified_of_stored supply_eq stored
  · intro commands
    obtain ⟨ledger, supply_eq, stored⟩ := exists_ledger_of_run commands
    exact identified_of_stored supply_eq stored

/-- A node of the only variable of a history. -/
def onlyVar (label : Label) : Ty := .var label (.lexical ⟨0, "a", .type⟩)

/-- The relation of the variable to itself. -/
def selfRelation (label : Label) : Relation :=
  .mk label ⟨0, "Same", .identity⟩ [onlyVar (some 0)] 1 .empty

/-- The function type over the variable with that constraint. -/
def selfFunction (label : Label) : Ty :=
  .func label [⟨0, "a", .type⟩] [onlyVar (some 0)] (onlyVar (some 0)) [selfRelation (some 1)]

/-- Draws the variable and the function of the relation, and makes a node and the relation. -/
def relatedWorld : World :=
  (((({} : World).after (do return .typeVar (← TypeVar.fresh "a" .type))).after
    (do return .function (← RelationFn.fresh "Same" .identity))).after
    (Item.register (.type (onlyVar none)))).after
    (Item.register (.relation (selfRelation none)))

/-- Makes the function type twice. -/
def doubledWorld : World :=
  (relatedWorld.after (Item.register (.type (selfFunction none)))).after
    (Item.register (.type (selfFunction none)))

theorem relatedWorld_reached : Reached relatedWorld := by
  have drawn := (Reached.start.draw (.typeVar "a" .type)).draw (.function "Same" .identity)
  have node_made : Reached (World.after _ (Item.register (.type (onlyVar none)))) :=
    drawn.make (.occurrence (.tail _ (.head _)))
  have made : Relation.make ⟨0, "Same", .identity⟩ [onlyVar (some 0)] 1 .empty =
      .ok (selfRelation none) := rfl
  exact node_made.make
    (.relation (.tail _ (.head _)) (List.forall_mem_singleton.mpr (.head _)) made)

theorem doubledWorld_reached : Reached doubledWorld := by
  have makes : ∀ {held : Item → Prop}, held (.typeVar ⟨0, "a", .type⟩) →
      held (.type (onlyVar (some 0))) → held (.relation (selfRelation (some 1))) →
      Makes held (.type (selfFunction none)) :=
    fun param node relation => .func (List.forall_mem_singleton.mpr param)
      (List.forall_mem_singleton.mpr node) node (List.forall_mem_singleton.mpr relation)
  have once := relatedWorld_reached.make
    (makes (.tail _ (.tail _ (.tail _ (.head _)))) (.tail _ (.head _)) (.head _))
  exact once.make (makes (.tail _ (.tail _ (.tail _ (.tail _ (.head _)))))
    (.tail _ (.tail _ (.head _))) (.tail _ (.head _)))

/-- Two nodes of one history that are equal have the same text. -/
theorem doubledWorld_identified :
    Reached doubledWorld ∧ (selfFunction (some 2) == selfFunction (some 3)) = true ∧
      (selfFunction (some 2)).print .on = (selfFunction (some 3)).print .on := by
  have identified := identity_determines_content.1 doubledWorld doubledWorld_reached
  have equal : (selfFunction (some 2) == selfFunction (some 3)) = true := by decide
  refine ⟨doubledWorld_reached, equal, ?_⟩
  exact identified.types _ _ (.self (.tail _ (.head _))) (.self (.head _)) equal .on

end Session

end ShapeTyping
