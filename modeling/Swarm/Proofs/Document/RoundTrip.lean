import Swarm.Document.Source
import Swarm.Proofs.Source.Position

/-!
# Reading back what was written

A program that is written as a document is read back as it was. Two things could get in the way.
Primitives share their object with `args`, `blocks` and `position`, so no primitive may have a field
of one of these names. Values have no tag, so what is written for one may not be taken for another:
an agent set is an object like an agent, but has no number.

Numbers have to be finite, because a null is written for the others, and the resolved index of a
call is not written at all. Besides, documents hold numbers of the machine: sizes and places below
`2 ^ 64`, lines and columns below `2 ^ 32`.

## Main definitions

* `Value.Storable`, `Expr.Storable`, `Statement.Storable`, `ProgramDef.Storable`: what can be stored

## Main results

* `Entries.find?_of_mem`: fields of an object whose keys differ
* `Value.ofJson?_toJson`, `Expr.ofJson?_toJson`, `Statement.ofJson?_toJson`: the parts of a program
* `ProgramDef.survives_storage`: programs
-/

namespace Swarm

-- ════════════════════════════════════════════════════════════════════════
-- Entries whose keys differ
-- ════════════════════════════════════════════════════════════════════════

namespace Entries

variable {α β : Type} {entries : Entries α} {key : String} {value : α}

/-- The keys of entries, in order. -/
def keys (entries : Entries α) : List String :=
  entries.map Prod.fst

@[simp]
theorem keys_nil : keys ([] : Entries α) = [] :=
  rfl

@[simp]
theorem keys_cons (e : String × α) (rest : Entries α) : keys (e :: rest) = e.1 :: keys rest :=
  rfl

@[simp]
theorem keys_append (entries more : Entries α) :
    keys (entries ++ more) = keys entries ++ keys more :=
  List.map_append

theorem filter_eq_nil (h : key ∉ keys entries) : (entries.filter fun e => e.1 == key) = [] := by
  rw [List.filter_eq_nil_iff]
  rintro ⟨k, v⟩ he hk
  have hkey : k = key := by simpa using hk
  exact h (List.mem_map.mpr ⟨(k, v), he, hkey⟩)

/-- An entry is found under its key if no other entry has that key. -/
theorem find?_of_mem (nodup : (keys entries).Nodup) (h : (key, value) ∈ entries) :
    find? entries key = some (some value) := by
  have hfilter : (entries.filter fun e => e.1 == key) = [(key, value)] := by
    induction entries with
    | nil => cases h
    | cons e rest ih =>
      obtain ⟨hnew, hrest⟩ := List.nodup_cons.mp nodup
      rcases List.mem_cons.mp h with rfl | hmem
      · rw [List.filter_cons_of_pos (by simp), filter_eq_nil hnew]
      · have hne : e.1 ≠ key := by
          rintro rfl
          exact hnew (List.mem_map.mpr ⟨_, hmem, rfl⟩)
        rw [List.filter_cons_of_neg (by simpa using hne)]
        exact ih hrest hmem
  rw [find?, hfilter]

theorem find?_append_left {more : Entries α} (h : key ∉ keys more) :
    find? (entries ++ more) key = find? entries key := by
  rw [find?, List.filter_append, filter_eq_nil h, List.append_nil]
  rfl

theorem find?_append_right {more : Entries α} (h : key ∉ keys entries) :
    find? (entries ++ more) key = find? more key := by
  rw [find?, List.filter_append, filter_eq_nil h, List.nil_append]
  rfl

theorem get?_of_mem (nodup : (keys entries).Nodup) (h : (key, value) ∈ entries) :
    get? entries key = some value := by
  rw [get?, find?_of_mem nodup h]
  rfl

theorem getD?_of_mem {read : α → Option β} {default : β} (nodup : (keys entries).Nodup)
    (h : (key, value) ∈ entries) : getD? entries key read default = read value := by
  rw [getD?, find?_of_mem nodup h]

theorem getD?_congr {more : Entries α} {read : α → Option β} {default : β}
    (h : find? entries key = find? more key) :
    getD? entries key read default = getD? more key read default := by
  rw [getD?, getD?, h]

/-- Reading every entry before one is picked is the same as reading the one that is picked. -/
theorem getD?_map (entries : Entries α) (read : α → Option β) (default : β) :
    getD? (entries.map fun e => (e.1, read e.2)) key id default
      = getD? entries key read default := by
  have hfind : find? (entries.map fun e => (e.1, read e.2)) key
      = (find? entries key).map fun v => v.map read := by
    rw [find?, find?, List.filter_map]
    rw [show ((fun e : String × Option β => e.1 == key) ∘ fun e : String × α => (e.1, read e.2))
      = fun e => e.1 == key from rfl]
    generalize (entries.filter fun e => e.1 == key) = found
    rcases found with _ | ⟨e, _ | ⟨e', rest⟩⟩ <;> rfl
  rw [getD?, getD?, hfind]
  rcases find? entries key with _ | _ | v <;> rfl

end Entries

/-- Items are read one by one. -/
theorem Json.mapM_map_eq_some {α : Type} {read : Json → Option α} {write : α → Json} {xs : List α}
    (h : ∀ x ∈ xs, read (write x) = some x) : (xs.map write).mapM read = some xs := by
  induction xs with
  | nil => rfl
  | cons x rest ih =>
    have hrest := ih fun y hy => h y (List.mem_cons_of_mem x hy)
    rw [List.map_cons, List.mapM_cons, h x List.mem_cons_self, hrest]
    rfl

theorem Json.nat?_natural {n : Nat} (h : n < Nat.pow 2 64) : (natural n).nat? = some n := by
  rw [natural, nat?, if_pos ⟨Int.natCast_nonneg n, h⟩]
  rfl

theorem Json.nat32?_natural {n : Nat} (h : n < Nat.pow 2 32) : (natural n).nat32? = some n := by
  rw [natural, nat32?, if_pos ⟨Int.natCast_nonneg n, h⟩]
  rfl

-- ════════════════════════════════════════════════════════════════════════
-- Values
-- ════════════════════════════════════════════════════════════════════════

theorem AgentKind.ofJson?_toJson (kind : AgentKind) : ofJson? kind.toJson = some kind := by
  cases kind <;> rfl

theorem AgentRef.ofJson?_toJson {a : AgentRef} (h : a.id < Nat.pow 2 64) : ofJson? a.toJson = some a := by
  simp [ofJson?, toJson, Json.fields?, ofEntries?, Entries.get?, Entries.find?,
    AgentKind.ofJson?_toJson, Json.nat?_natural h]

theorem AgentSet.ofJson?_toJson {s : AgentSet} (h : ∀ a ∈ s.agents, a.id < Nat.pow 2 64) :
    ofJson? s.toJson = some s := by
  have hagents : (s.agents.map AgentRef.toJson).mapM AgentRef.ofJson? = some s.agents :=
    Json.mapM_map_eq_some fun a ha => AgentRef.ofJson?_toJson (h a ha)
  simp [ofJson?, toJson, Json.fields?, ofEntries?, Entries.get?, Entries.getD?, Entries.find?,
    AgentKind.ofJson?_toJson, Json.listOf?, hagents, Json.bool?]

/-- An agent set is not taken for an agent: it has no number. -/
theorem AgentRef.ofJson?_agentset (s : AgentSet) : ofJson? s.toJson = none := by
  simp [ofJson?, AgentSet.toJson, Json.fields?, ofEntries?, Entries.get?, Entries.find?]

namespace Value

mutual

/-- A value that a document can hold: its numbers are finite, and its agents have numbers of the
machine. -/
def Storable : Value → Prop
  | .number x => Number.isFinite x = true
  | .list items => AllStorable items
  | .agent a => a.id < Nat.pow 2 64
  | .agentset s => ∀ a ∈ s.agents, a.id < Nat.pow 2 64
  | _ => True

/-- Every value of a list can be held. -/
def AllStorable : List Value → Prop
  | [] => True
  | item :: rest => item.Storable ∧ AllStorable rest

end

mutual

theorem ofJson?_toJson : ∀ v : Value, v.Storable → ofJson? v.toJson = some v
  | .nobody, _ => rfl
  | .boolean _, _ => rfl
  | .string _, _ => rfl
  | .number x, h => by
    have hx : numberToJson x = .real x := if_pos h
    rw [toJson, hx, ofJson?]
  | .list items, h => by
    rw [toJson, ofJson?, listOfJson?_listToJson items h]
  | .agent a, h => by
    have ha : AgentRef.ofJson? a.toJson = some a := AgentRef.ofJson?_toJson h
    rw [AgentRef.toJson] at ha
    rw [toJson, AgentRef.toJson, ofJson?, agentsOfJson?, ha]
  | .agentset s, h => by
    have hs : AgentSet.ofJson? s.toJson = some s := AgentSet.ofJson?_toJson h
    have hagent : AgentRef.ofJson? s.toJson = none := AgentRef.ofJson?_agentset s
    rw [AgentSet.toJson] at hs hagent
    rw [toJson, AgentSet.toJson, ofJson?, agentsOfJson?, hagent, hs]

theorem listOfJson?_listToJson :
    ∀ items : List Value, AllStorable items → listOfJson? (listToJson items) = some items
  | [], _ => rfl
  | item :: rest, h => by
    rw [listToJson, listOfJson?, ofJson?_toJson item h.1, listOfJson?_listToJson rest h.2]

end

end Value

-- ════════════════════════════════════════════════════════════════════════
-- Primitives and positions
-- ════════════════════════════════════════════════════════════════════════

theorem Position.ofJson?_toJson {p : Position} (h : p.Fits) : ofJson? p.toJson = some p := by
  have hline : p.line < Nat.pow 2 32 := Nat.lt_of_le_pred (by decide) h.1
  have hcolumn : p.column < Nat.pow 2 32 := Nat.lt_of_le_pred (by decide) h.2
  simp [ofJson?, toJson, Json.fields?, Entries.get?, Entries.find?, Json.nat32?_natural hline,
    Json.nat32?_natural hcolumn]

/-- A reporter that a document can hold. -/
def Reporter.Storable : Reporter → Prop
  | .constant value => value.Storable
  | .getVariable _ slot => slot < Nat.pow 2 64
  | .getLocal slot => slot < Nat.pow 2 64
  | _ => True

/-- A command that a document can hold: a call is not resolved yet. -/
def Command.Storable : Command → Prop
  | .setVariable _ slot => slot < Nat.pow 2 64
  | .letLocal slot => slot < Nat.pow 2 64
  | .setLocal slot => slot < Nat.pow 2 64
  | .repeatTimes slot => slot < Nat.pow 2 64
  | .repeatCheck slot => slot < Nat.pow 2 64
  | .call _ index => index = 0
  | _ => True

/-- A reporter is read back from its tag and its fields, whatever stands next to them. -/
theorem Reporter.ofTag?_tag {r : Reporter} (h : r.Storable) {entries : Entries Json}
    (hparams : ∀ p ∈ r.params, entries.get? p.1 = some p.2) :
    ofTag? r.tag (fun _ => some entries) = some r := by
  have hfield (key : String) (json : Json) (hr : r.params = [(key, json)]) :
      entries.get? key = some json :=
    hparams (key, json) (by rw [hr]; exact List.mem_singleton_self _)
  cases r with
  | constant value =>
    show ((entries.get? "value").bind fun json => (Value.ofJson? json).bind _) = _
    rw [hfield "value" value.toJson rfl, Option.bind_some, Value.ofJson?_toJson value h]
    rfl
  | getVariable kind slot =>
    have hslot : ofTag? (tag (.getVariable kind slot)) (fun _ => some entries)
        = (entries.get? "vn").bind fun json => json.nat?.bind fun n =>
          some (.getVariable kind n) := by
      cases kind <;> rfl
    rw [hslot, hfield "vn" (.natural slot) rfl, Option.bind_some, Json.nat?_natural h]
    rfl
  | getLocal slot =>
    show ((entries.get? "slot").bind fun json => json.nat?.bind _) = _
    rw [hfield "slot" (.natural slot) rfl, Option.bind_some, Json.nat?_natural h]
    rfl
  | unknown name =>
    show ((entries.get? "name").bind fun json => json.string?.bind _) = _
    rw [hfield "name" (.string name) rfl]
    rfl
  | _ => rfl

/-- A command is read back from its tag and its fields, whatever stands next to them. -/
theorem Command.ofTag?_tag {c : Command} (h : c.Storable) {entries : Entries Json}
    (hparams : ∀ p ∈ c.params, entries.get? p.1 = some p.2) :
    ofTag? c.tag (fun _ => some entries) = some c := by
  have hfield (key : String) (json : Json) (hc : c.params = [(key, json)]) :
      entries.get? key = some json :=
    hparams (key, json) (by rw [hc]; exact List.mem_singleton_self _)
  cases c with
  | setVariable kind slot =>
    have hslot : ofTag? (tag (.setVariable kind slot)) (fun _ => some entries)
        = (entries.get? "vn").bind fun json => json.nat?.bind fun n =>
          some (.setVariable kind n) := by
      cases kind <;> rfl
    rw [hslot, hfield "vn" (.natural slot) rfl, Option.bind_some, Json.nat?_natural h]
    rfl
  | letLocal slot | setLocal slot | repeatTimes slot | repeatCheck slot =>
    show ((entries.get? "slot").bind fun json => json.nat?.bind _) = _
    rw [hfield "slot" (.natural slot) rfl, Option.bind_some, Json.nat?_natural h]
    rfl
  | call procedure index =>
    have hindex : index = 0 := h
    show ((entries.get? "procedure").bind fun json => json.string?.bind _) = _
    rw [hfield "procedure" (.string procedure) rfl, hindex]
    rfl
  | _ => rfl

-- ════════════════════════════════════════════════════════════════════════
-- Records of primitives
-- ════════════════════════════════════════════════════════════════════════

namespace Primitive

/-- The keys next to the fields of a primitive. -/
def commonKeys : List String :=
  ["prim", "args", "blocks", "position"]

/-- A primitive with its own fields, lists of what it is applied to, and its position. -/
def record (tag : String) (params lists : Entries Json) (position : Position) : Entries Json :=
  ("prim", .string tag) :: params ++ lists ++ [("position", position.toJson)]

/-- A list of things, which is left out if there are none. -/
def listField {α : Type} (key : String) (xs : List α) (json : Json) : Entries Json :=
  if xs.isEmpty then [] else [(key, json)]

variable {tag : String} {params lists : Entries Json} {position : Position}

/-- No two fields of a primitive share their key. -/
theorem nodup_record (apart : (params.keys ++ commonKeys).Nodup)
    (only : lists.keys.Sublist ["args", "blocks"]) :
    (record tag params lists position).keys.Nodup := by
  have hall : ("prim" :: (params.keys ++ ["args", "blocks", "position"])).Nodup :=
    List.perm_middle.nodup_iff.mp apart
  have hsub : (record tag params lists position).keys.Sublist
      ("prim" :: (params.keys ++ ["args", "blocks", "position"])) := by
    simp only [record, Entries.keys_append, Entries.keys_cons, Entries.keys_nil,
      List.cons_append, List.append_assoc]
    exact ((only.append_right ["position"]).append_left params.keys).cons_cons "prim"
  exact hall.sublist hsub

theorem mem_record_of_mem {p : String × Json} (h : p ∈ params) :
    p ∈ record tag params lists position := by
  simp [record, h]

/-- Arguments and blocks are found among the lists only. -/
theorem find?_list (apart : (params.keys ++ commonKeys).Nodup) {key : String}
    (h : key = "args" ∨ key = "blocks") :
    (record tag params lists position).find? key = lists.find? key := by
  have hcommon : key ∈ commonKeys := by rcases h with rfl | rfl <;> decide
  have hparams : key ∉ params.keys := fun hk =>
    (List.nodup_append.mp apart).2.2 key hk key hcommon rfl
  have hprim : key ≠ "prim" := by rcases h with rfl | rfl <;> decide
  have hposition : key ≠ "position" := by rcases h with rfl | rfl <;> decide
  rw [record, Entries.find?_append_left (by simpa using hposition),
    Entries.find?_append_right (by simp [hprim, hparams])]

theorem keys_listField_sublist {α : Type} (key : String) (xs : List α) (json : Json) :
    (listField key xs json).keys.Sublist [key] := by
  cases xs <;> simp [listField]

theorem not_mem_listField {α : Type} {key other : String} {xs : List α} {json : Json}
    (h : key ≠ other) : key ∉ (listField other xs json).keys := by
  intro hk
  exact h (List.mem_singleton.mp ((keys_listField_sublist other xs json).mem hk))

/-- A list that was left out is read as an empty one. -/
theorem getD?_listField {α : Type} {key : String} {xs : List α} {json : Json}
    {read : Json → Option (List α)} (h : read json = some xs) :
    (listField key xs json).getD? key read [] = some xs := by
  cases xs <;> simp [listField, Entries.getD?, Entries.find?, h]

end Primitive

/-- The fields of a reporter are apart from the common ones. -/
theorem Reporter.apart_params (r : Reporter) : (r.params.keys ++ Primitive.commonKeys).Nodup := by
  cases r <;> simp [params, Primitive.commonKeys]

/-- The fields of a command are apart from the common ones. -/
theorem Command.apart_params (c : Command) : (c.params.keys ++ Primitive.commonKeys).Nodup := by
  cases c <;> simp [params, Primitive.commonKeys]

theorem primitiveTag?_record {tags : List String} {tag : String} {params lists : Entries Json}
    {position : Position} (nodup : (Primitive.record tag params lists position).keys.Nodup) :
    primitiveTag? tags (Primitive.record tag params lists position) = some tag := by
  have hprim : Entries.get? (Primitive.record tag params lists position) "prim"
      = some (.string tag) := Entries.get?_of_mem nodup List.mem_cons_self
  rw [primitiveTag?, hprim]
  rfl

theorem Position.getD?_record {tag : String} {params lists : Entries Json} {position : Position}
    (nodup : (Primitive.record tag params lists position).keys.Nodup) (h : position.Fits) :
    Entries.getD? (Primitive.record tag params lists position) "position" ofJson? .zero
      = some position := by
  have hmem : ("position", position.toJson) ∈ Primitive.record tag params lists position := by
    simp [Primitive.record]
  rw [Entries.getD?_of_mem nodup hmem]
  exact ofJson?_toJson h

-- ════════════════════════════════════════════════════════════════════════
-- Expressions
-- ════════════════════════════════════════════════════════════════════════

namespace Expr

mutual

/-- An expression that a document can hold. -/
def Storable : Expr → Prop
  | ⟨reporter, args, position⟩ => reporter.Storable ∧ AllStorable args ∧ position.Fits

/-- Every expression of a list can be held. -/
def AllStorable : List Expr → Prop
  | [] => True
  | e :: rest => e.Storable ∧ AllStorable rest

end

theorem listToJson_eq_map (es : List Expr) : listToJson es = es.map toJson := by
  induction es with
  | nil => rfl
  | cons e rest ih => rw [listToJson, ih, List.map_cons]

theorem listsOfEntries_eq_map (entries : Entries Json) :
    listsOfEntries entries = entries.map fun e => (e.1, listOfJson? e.2) := by
  induction entries with
  | nil => rfl
  | cons e rest ih => rw [listsOfEntries, ih, List.map_cons]

/-- The lists of an expression: its arguments. -/
def lists (args : List Expr) : Entries Json :=
  Primitive.listField "args" args (.array (listToJson args))

theorem toJson_eq_record (reporter : Reporter) (args : List Expr) (position : Position) :
    toJson ⟨reporter, args, position⟩ =
      .object (Primitive.record reporter.tag reporter.params (lists args) position) := by
  rw [toJson]
  rfl

/-- An expression is read back if its arguments are. -/
theorem ofJson?_record {reporter : Reporter} {args : List Expr} {position : Position}
    (hreporter : reporter.Storable) (hposition : position.Fits)
    (hargs : listOfJson? (.array (listToJson args)) = some args) :
    ofJson? (toJson ⟨reporter, args, position⟩) = some ⟨reporter, args, position⟩ := by
  have hnodup : (Primitive.record reporter.tag reporter.params (lists args) position).keys.Nodup :=
    Primitive.nodup_record reporter.apart_params
      ((Primitive.keys_listField_sublist _ _ _).trans (by decide))
  have hread : Entries.getD? (Primitive.record reporter.tag reporter.params (lists args) position)
      "args" listOfJson? [] = some args :=
    (Entries.getD?_congr (Primitive.find?_list reporter.apart_params (.inl rfl))).trans
      (Primitive.getD?_listField hargs)
  have hparams := Reporter.ofTag?_tag hreporter fun p hp =>
    Entries.get?_of_mem hnodup (Primitive.mem_record_of_mem hp)
  rw [toJson_eq_record, ofJson?]
  simp only [primitiveTag?_record hnodup, listsOfEntries_eq_map, Entries.getD?_map, hread,
    Position.getD?_record hnodup hposition, Option.bind_eq_bind, Option.bind_some, hparams]
  rfl

mutual

theorem ofJson?_toJson : ∀ e : Expr, e.Storable → ofJson? e.toJson = some e
  | ⟨_, args, _⟩, ⟨hreporter, hargs, hposition⟩ =>
    ofJson?_record hreporter hposition (itemsOfJson?_listToJson args hargs)

theorem itemsOfJson?_listToJson :
    ∀ es : List Expr, AllStorable es → itemsOfJson? (listToJson es) = some es
  | [], _ => rfl
  | e :: rest, h => by
    rw [listToJson, itemsOfJson?, ofJson?_toJson e h.1, itemsOfJson?_listToJson rest h.2]

end

end Expr

-- ════════════════════════════════════════════════════════════════════════
-- Statements
-- ════════════════════════════════════════════════════════════════════════

namespace Statement

mutual

/-- A statement that a document can hold. -/
def Storable : Statement → Prop
  | ⟨command, args, blocks, position⟩ =>
    command.Storable ∧ Expr.AllStorable args ∧ BlocksStorable blocks ∧ position.Fits

/-- Every statement of a block can be held. -/
def AllStorable : List Statement → Prop
  | [] => True
  | s :: rest => s.Storable ∧ AllStorable rest

/-- Every block of a list can be held. -/
def BlocksStorable : List (List Statement) → Prop
  | [] => True
  | b :: rest => AllStorable b ∧ BlocksStorable rest

end

theorem blocksOfEntries_eq_map (entries : Entries Json) :
    blocksOfEntries entries = entries.map fun e => (e.1, blocksOfJson? e.2) := by
  induction entries with
  | nil => rfl
  | cons e rest ih => rw [blocksOfEntries, ih, List.map_cons]

/-- The lists of a statement: its arguments and its blocks. -/
def lists (args : List Expr) (blocks : List (List Statement)) : Entries Json :=
  Primitive.listField "args" args (.array (Expr.listToJson args))
    ++ Primitive.listField "blocks" blocks (.array (blocksToJson blocks))

theorem toJson_eq_record (command : Command) (args : List Expr) (blocks : List (List Statement))
    (position : Position) :
    toJson ⟨command, args, blocks, position⟩ =
      .object (Primitive.record command.tag command.params (lists args blocks) position) := by
  rw [toJson, Primitive.record, lists, ← List.append_assoc, Expr.listToJson_eq_map]
  rfl

/-- A statement is read back if its arguments and its blocks are. -/
theorem ofJson?_record {command : Command} {args : List Expr} {blocks : List (List Statement)}
    {position : Position} (hcommand : command.Storable) (hposition : position.Fits)
    (hargs : Expr.listOfJson? (.array (Expr.listToJson args)) = some args)
    (hblocks : blocksOfJson? (.array (blocksToJson blocks)) = some blocks) :
    ofJson? (toJson ⟨command, args, blocks, position⟩) =
      some ⟨command, args, blocks, position⟩ := by
  have hnodup :
      (Primitive.record command.tag command.params (lists args blocks) position).keys.Nodup := by
    apply Primitive.nodup_record command.apart_params
    rw [lists, Entries.keys_append]
    exact (Primitive.keys_listField_sublist _ _ _).append (Primitive.keys_listField_sublist _ _ _)
  have hreadArgs : Entries.getD?
      (Primitive.record command.tag command.params (lists args blocks) position)
      "args" Expr.listOfJson? [] = some args :=
    (Entries.getD?_congr ((Primitive.find?_list command.apart_params (.inl rfl)).trans
      (Entries.find?_append_left (Primitive.not_mem_listField (by decide))))).trans
      (Primitive.getD?_listField hargs)
  have hreadBlocks : Entries.getD?
      (Primitive.record command.tag command.params (lists args blocks) position)
      "blocks" blocksOfJson? [] = some blocks :=
    (Entries.getD?_congr ((Primitive.find?_list command.apart_params (.inr rfl)).trans
      (Entries.find?_append_right (Primitive.not_mem_listField (by decide))))).trans
      (Primitive.getD?_listField hblocks)
  have hparams := Command.ofTag?_tag hcommand fun p hp =>
    Entries.get?_of_mem hnodup (Primitive.mem_record_of_mem hp)
  rw [toJson_eq_record, ofJson?]
  simp only [primitiveTag?_record hnodup, blocksOfEntries_eq_map, Entries.getD?_map, hreadArgs,
    hreadBlocks, Position.getD?_record hnodup hposition, Option.bind_eq_bind, Option.bind_some,
    hparams]
  rfl

mutual

theorem ofJson?_toJson : ∀ s : Statement, s.Storable → ofJson? s.toJson = some s
  | ⟨_, args, blocks, _⟩, ⟨hcommand, hargs, hblocks, hposition⟩ =>
    ofJson?_record hcommand hposition (Expr.itemsOfJson?_listToJson args hargs)
      (blockItemsOfJson?_blocksToJson blocks hblocks)

theorem itemsOfJson?_listToJson :
    ∀ b : List Statement, AllStorable b → itemsOfJson? (listToJson b) = some b
  | [], _ => rfl
  | s :: rest, h => by
    rw [listToJson, itemsOfJson?, ofJson?_toJson s h.1, itemsOfJson?_listToJson rest h.2]

theorem blockItemsOfJson?_blocksToJson : ∀ blocks : List (List Statement),
    BlocksStorable blocks → blockItemsOfJson? (blocksToJson blocks) = some blocks
  | [], _ => rfl
  | b :: rest, h => by
    rw [blocksToJson, blockItemsOfJson?, blockOfJson?, itemsOfJson?_listToJson b h.1,
      blockItemsOfJson?_blocksToJson rest h.2]

end

theorem AllStorable.of_mem {b : List Statement} (h : AllStorable b) :
    ∀ s ∈ b, s.Storable := by
  induction b with
  | nil => simp
  | cons s rest ih =>
    intro t ht
    rcases List.mem_cons.mp ht with rfl | hmem
    · exact h.1
    · exact ih h.2 t hmem

end Statement

-- ════════════════════════════════════════════════════════════════════════
-- Programs
-- ════════════════════════════════════════════════════════════════════════

/-- A procedure that a document can hold. -/
structure ProcedureDef.Storable (q : ProcedureDef) : Prop where
  inputs : q.inputs < Nat.pow 2 64
  locals : q.locals < Nat.pow 2 64
  body : Statement.AllStorable q.body

/-- A program that a document can hold. -/
def ProgramDef.Storable (p : ProgramDef) : Prop :=
  ∀ q ∈ p.procedures, q.Storable

theorem ProcedureDef.ofJson?_toJson {q : ProcedureDef} (h : q.Storable) :
    ofJson? q.toJson = some q := by
  have hbody : (q.body.map Statement.toJson).mapM Statement.ofJson? = some q.body :=
    Json.mapM_map_eq_some fun s hs => Statement.ofJson?_toJson s (h.body.of_mem s hs)
  simp [ofJson?, toJson, Json.fields?, Entries.get?, Entries.getD?, Entries.find?, Json.string?,
    Json.nat?_natural h.inputs, Json.nat?_natural h.locals, Json.listOf?, hbody]

/-- A program that was written as a document is read back as it was. -/
theorem ProgramDef.survives_storage (p : ProgramDef) (h : p.Storable) :
    ofJson? p.toJson = some p := by
  have hprocedures : (p.procedures.map ProcedureDef.toJson).mapM ProcedureDef.ofJson?
      = some p.procedures := Json.mapM_map_eq_some fun q hq => ProcedureDef.ofJson?_toJson (h q hq)
  simp [ofJson?, toJson, Json.fields?, ofEntries?, Entries.get?, Entries.find?, Json.listOf?,
    hprocedures]

/-- A program with every kind of constant, and with blocks and expressions inside of each other. -/
def ProgramDef.sampler : ProgramDef where
  procedures := [{
    name := "go"
    inputs := 1
    locals := 2
    body := [{
      command := .ifElse
      args := [
        ⟨.and, [.constant (.boolean true), ⟨.not, [⟨.getLocal 0, [], ⟨1, 4⟩⟩], ⟨1, 3⟩⟩], ⟨1, 2⟩⟩]
      position := ⟨1, 0⟩
      blocks := [
        [⟨.ask, [.constant (.agentset ⟨.turtle, [⟨.turtle, 3⟩, ⟨.patch, 0⟩, ⟨.turtle, 3⟩], true⟩)],
          [[⟨.call "go" 0, [.constant (.list [.nobody, .number (-2.5), .list [.string "kind"]])],
            [], ⟨2, 8⟩⟩]], ⟨2, 4⟩⟩],
        [⟨.setVariable .patch 2, [.constant (.agent ⟨.link, 7⟩)], [], .zero⟩]] }] }]

theorem ProgramDef.survives_storage_sampler :
    sampler.Storable ∧ ofJson? sampler.toJson = some sampler := by
  have hnumber : Number.isFinite (-2.5) = true := by decide +kernel
  have hsampler : sampler.Storable := by
    intro q hq
    obtain rfl := List.mem_singleton.mp hq
    refine ⟨by decide, by decide, ?_⟩
    simp [Statement.AllStorable, Statement.Storable, Statement.BlocksStorable, Expr.AllStorable,
      Expr.Storable, Expr.constant, Expr.ofReporter, Reporter.Storable, Command.Storable,
      Value.Storable, Value.AllStorable, Position.Fits, Position.top, Position.zero, hnumber]
  exact ⟨hsampler, survives_storage sampler hsampler⟩

end Swarm
