import Rankwise.Proofs.ReadingTables
import Rankwise.Wire.Plan

/-!
# Plans are read back as they were written

A plan that is written and read back is the same plan with the names of its tables on the workers in
the place of the tables themselves (`Arena.resolved`). `Fits` says what holds of every plan by the
types of its parts: numbers are machine words, and options have distinct names in order.
-/

namespace Rankwise

open Json (Reads Record Choice)

/-- The table under its name on the workers, if it has one. -/
def LazyTable.resolved (names : LazyNames) (table : LazyTable) : LazyTable :=
  ((table.resultId? names).map stored).getD table

/-- A lazy table that can be written is read back under the name it is given. -/
theorem LazyTable.reads (names : LazyNames) (table : LazyTable) (written : Json)
    (encoded : table.encode? names = some written) :
    Reads decode written (table.resolved names) := by
  obtain ⟨id, named, rfl⟩ := Option.map_eq_some_iff.mp encoded
  have shape : table.resolved names = stored id := by
    rw [resolved, named]
    rfl
  rw [shape]
  exact id.reads.andThen _ _ rfl

namespace NodeId

/-- The place is a machine word. -/
def Fits (id : NodeId) : Prop := id.index < 2 ^ 64

/-- A node id is read back as itself. -/
theorem reads (id : NodeId) (fits : id.Fits) : Reads decode id.encode id :=
  (Json.reads_size id.index fits).andThen _ _ rfl

end NodeId

/-- The output of a node is read back as itself. -/
theorem OutputSchema.reads (output : OutputSchema) : Reads decode output.encode output := by
  apply Json.reads_record ["schema", "kind"] (by decide) _ rfl
  refine .field "schema" rfl output.schema.reads ?_
  obtain ⟨_, kind⟩ := output
  cases kind with
  | frame => exact .field "kind" rfl (Json.reads_oneOf _ _ _ rfl) .done
  | singleColumn => exact .field "kind" rfl (Json.reads_oneOf _ _ _ rfl) .done

/-- A unary operator is read back as itself. -/
theorem UnaryOperator.reads (operator : UnaryOperator) :
    Reads decode operator.encode operator := by
  cases operator <;> exact Json.reads_oneOf _ _ _ rfl

/-- A binary operator is read back as itself. -/
theorem BinaryOperator.reads (operator : BinaryOperator) :
    Reads decode operator.encode operator := by
  cases operator <;> exact Json.reads_oneOf _ _ _ rfl

/-- The kind of a join is read back as itself. -/
theorem JoinKind.reads (kind : JoinKind) : Reads decode kind.encode kind := by
  cases kind <;> exact Json.reads_oneOf _ _ _ rfl

/-- A comparison is read back as itself. -/
theorem Comparison.reads (comparison : Comparison) : Reads decode comparison.encode comparison := by
  cases comparison <;> exact Json.reads_oneOf _ _ _ rfl

/-- The kind of a set operation is read back as itself. -/
theorem SetKind.reads (kind : SetKind) : Reads decode kind.encode kind := by
  cases kind <;> exact Json.reads_oneOf _ _ _ rfl

namespace Side

/-- The place of an expression is a machine word. -/
def Fits (side : Side) : Prop := ∀ id ∈ side.expression?, id.Fits

/-- A side is read back as itself, whether node or scalar. -/
theorem reads (side : Side) (fits : side.Fits) : Reads decode side.encode side := by
  cases side with
  | expression id =>
    exact Json.reads_choice "Expr" (fun _ _ => rfl) ((id.reads (fits id rfl)).andThen _ _ rfl)
  | scalar value =>
    exact Json.reads_choice "Scalar" (fun _ _ => rfl) (value.reads.andThen _ _ rfl)

end Side

/-- The places of columns are machine words. -/
def columnsFit (columns : List Nat) : Prop := ∀ column ∈ columns, column < 2 ^ 64

/-- The places of nodes are machine words. -/
def nodesFit (ids : List NodeId) : Prop := ∀ id ∈ ids, id.Fits

/-- A list of column positions is read back as itself. -/
theorem reads_columns (columns : List Nat) (fits : columnsFit columns) :
    Reads decodeColumns (encodeColumns columns) columns :=
  Json.reads_items columns fun column member => Json.reads_size column (fits column member)

/-- A list of node ids is read back as itself. -/
theorem reads_nodes (ids : List NodeId) (fits : nodesFit ids) :
    Reads NodeId.decode.list (encodeNodes ids) ids :=
  Json.reads_items ids fun id member => id.reads (fits id member)

/-- The options of a scan are read back as they are, in the order of their names. -/
theorem reads_options (options : Named String) (ordered : options.Ordered) :
    Reads decodeOptions (encodeOptions options) options :=
  Json.reads_named options ordered fun entry _ => Json.reads_string entry.2

namespace Expression

/-- The numbers in the expression are machine words. -/
def Fits : Expression → Prop
  | column source index => source.Fits ∧ index < 2 ^ 64
  | constant source _ => source.Fits
  | null source field => source.Fits ∧ field < 2 ^ 64
  | unary operand _ => operand.Fits
  | binary left right _ => left.Fits ∧ right.Fits
  | aggregate source _ columns _ => source.Fits ∧ columnsFit columns
  | rowFunction call => call.source.Fits ∧ columnsFit call.columns

/-- What is written is a choice of this name and with this payload. -/
theorem reads_of_payload (name : String) (payload : Json) (expression : Expression)
    (reads : Reads (decodePayload name) payload expression) :
    Reads decode (.choice name payload) expression := by
  exact Json.reads_choice name (fun _ _ => rfl) reads

/-- An expression is read back, one case for each of its forms. -/
theorem reads (expression : Expression) (fits : expression.Fits) :
    Reads decode expression.encode expression := by
  cases expression with
  | column source index =>
    apply reads_of_payload
    apply Json.reads_record ["source", "column"] (by decide) _ rfl
    refine .field "source" rfl (source.reads fits.1) ?_
    exact .field "column" rfl (Json.reads_size index fits.2) .done
  | constant source value =>
    apply reads_of_payload
    apply Json.reads_record ["source", "value"] (by decide) _ rfl
    refine .field "source" rfl (source.reads fits) ?_
    exact .field "value" rfl value.reads .done
  | null source field =>
    apply reads_of_payload
    apply Json.reads_record ["source", "field_idx"] (by decide) _ rfl
    refine .field "source" rfl (source.reads fits.1) ?_
    exact .field "field_idx" rfl (Json.reads_size field fits.2) .done
  | unary operand operator =>
    apply reads_of_payload
    apply Json.reads_record ["input", "op"] (by decide) _ rfl
    refine .field "input" rfl (operand.reads fits) ?_
    exact .field "op" rfl operator.reads .done
  | binary left right operator =>
    apply reads_of_payload
    apply Json.reads_record ["lhs", "rhs", "op"] (by decide) _ rfl
    refine .field "lhs" rfl (left.reads fits.1) ?_
    refine .field "rhs" rfl (right.reads fits.2) ?_
    exact .field "op" rfl operator.reads .done
  | aggregate source function columns skipNulls =>
    apply reads_of_payload
    apply Json.reads_record ["source", "function", "input_columns", "dropna"] (by decide) _ rfl
    refine .field "source" rfl (source.reads fits.1) ?_
    refine .field "function" rfl (Json.reads_string function) ?_
    refine .field "input_columns" rfl (reads_columns columns fits.2) ?_
    exact .field "dropna" rfl (Json.reads_boolean skipNulls) .done
  | rowFunction call =>
    apply reads_of_payload
    apply Json.reads_record
      ["source", "function", "args", "input_columns", "is_native", "has_state"] (by decide) _ rfl
    refine .field "source" rfl (call.source.reads fits.1) ?_
    refine .field "function" rfl (Json.reads_string call.function) ?_
    refine .field "args" rfl
      (Json.reads_items call.arguments fun scalar _ => scalar.reads) ?_
    refine .field "input_columns" rfl (reads_columns call.columns fits.2) ?_
    refine .field "is_native" rfl (Json.reads_boolean call.isNative) ?_
    exact .field "has_state" rfl (Json.reads_boolean call.hasState) .done

end Expression

namespace JoinCondition

/-- The places of the columns are machine words. -/
def Fits (condition : JoinCondition) : Prop :=
  condition.left < 2 ^ 64 ∧ condition.right < 2 ^ 64

/-- The condition of a join is read back, one case for each of its forms. -/
theorem reads (condition : JoinCondition) (fits : condition.Fits) :
    Reads decode condition.encode condition := by
  apply Json.reads_record ["left", "right", "op"] (by decide) _ rfl
  refine .field "left" rfl (Json.reads_size condition.left fits.1) ?_
  refine .field "right" rfl (Json.reads_size condition.right fits.2) ?_
  exact .field "op" rfl condition.comparison.reads .done

end JoinCondition

namespace SortKey

/-- The place of the column is a machine word. -/
def Fits (key : SortKey) : Prop := key.column < 2 ^ 64

/-- A sort key is read back as itself. -/
theorem reads (key : SortKey) (fits : key.Fits) : Reads decode key.encode key := by
  apply Json.reads_record ["column", "ascending", "nulls_first"] (by decide) _ rfl
  refine .field "column" rfl (Json.reads_size key.column fits) ?_
  refine .field "ascending" rfl (Json.reads_boolean key.ascending) ?_
  exact .field "nulls_first" rfl (Json.reads_boolean key.nullsFirst) .done

end SortKey

namespace CatalogScan

/-- The numbers in the scan are machine words, and its properties are in order. -/
def Fits (scan : CatalogScan) : Prop :=
  scan.properties.Ordered ∧ (∀ snapshot ∈ scan.snapshot, snapshot < 2 ^ 64) ∧
    scan.estimatedRows < 2 ^ 64

/-- A catalog scan is read back as itself. -/
theorem reads (scan : CatalogScan) (fits : scan.Fits) : Reads decode scan.encode scan := by
  apply Json.reads_record ["table_identifier", "catalog_name", "catalog_properties",
    "row_filter", "snapshot_id", "table_len_estimate"] (by decide) _ rfl
  refine .field "table_identifier" rfl (Json.reads_string scan.table) ?_
  refine .field "catalog_name" rfl (Json.reads_string scan.catalog) ?_
  refine .field "catalog_properties" rfl (reads_options scan.properties fits.1) ?_
  refine .text? "row_filter" rfl ?_
  refine .field? "snapshot_id" rfl
    (fun found member => Json.reads_size found (fits.2.1 found member))
    (fun _ _ same => by cases same) ?_
  exact .field "table_len_estimate" rfl (Json.reads_size scan.estimatedRows fits.2.2) .done

end CatalogScan

namespace Operator

/-- The numbers in the operator are machine words, and its options are in order. -/
def Fits : Operator → Prop
  | projection source expressions | distinct source expressions =>
    source.Fits ∧ nodesFit expressions
  | filter source predicate => source.Fits ∧ predicate.Fits
  | aggregate source keys aggregates => source.Fits ∧ columnsFit keys ∧ nodesFit aggregates
  | join left right _ conditions =>
    left.Fits ∧ right.Fits ∧ ∀ condition ∈ conditions, condition.Fits
  | setOperation left right _ => left.Fits ∧ right.Fits
  | limit source count offset => source.Fits ∧ count < 2 ^ 64 ∧ offset < 2 ^ 64
  | order source keys => source.Fits ∧ ∀ key ∈ keys, key.Fits
  | parquetScan _ options => Named.Ordered options
  | tableScan table => table.Fits
  | partitionScan _ rows => rows < 2 ^ 64
  | catalogScan scan => scan.Fits
  | parquetSink source _ _ rowGroupSize => source.Fits ∧ rowGroupSize < 2 ^ 64
  | catalogSink source _ properties => source.Fits ∧ Named.Ordered properties
  | vectorSink source _ _ _ => source.Fits

/-- The operator with its table under its name on the workers, if it scans one that has a name. -/
def resolved (names : LazyNames) : Operator → Operator
  | partitionScan table rows => partitionScan (table.resolved names) rows
  | other => other

/-- What is written is a choice of this name and with this payload. -/
theorem reads_of_payload {name : String} {payload written : Json} {operator : Operator}
    (encoded : some (.choice name payload) = some written)
    (reads : Reads (decodePayload name) payload operator) : Reads decode written operator := by
  obtain rfl := Option.some.inj encoded
  exact Json.reads_choice name (fun _ _ => rfl) reads

/-- What is written is a choice of this name with a record of these fields, and the fields are read.
-/
theorem reads_of_fields {name : String} {members : List (String × Json)} {written : Json}
    {operator : Operator} {build : Record → Option Operator}
    (encoded : some (.choice name (.object members)) = some written) (fields : List String)
    (distinct : fields.Nodup) (named : members.map Prod.fst = fields)
    (opens : decodePayload name = fun room tree => (Record.open? fields room tree).bind build)
    (gives : Record.Gives members build operator) : Reads decode written operator := by
  apply reads_of_payload encoded
  rw [opens]
  exact Json.reads_record fields distinct members named build operator gives

/-- An operator that is written is read back with the name of the table that it scans. -/
theorem reads (names : LazyNames) (operator : Operator) (fits : operator.Fits) (written : Json)
    (encoded : operator.encode? names = some written) :
    Reads decode written (operator.resolved names) := by
  cases operator with
  | projection source expressions =>
    refine reads_of_fields encoded ["source", "exprs"] (by decide) rfl rfl ?_
    refine .field "source" rfl (source.reads fits.1) ?_
    exact .field "exprs" rfl (reads_nodes expressions fits.2) .done
  | filter source predicate =>
    refine reads_of_fields encoded ["source", "predicate"] (by decide) rfl rfl ?_
    refine .field "source" rfl (source.reads fits.1) ?_
    exact .field "predicate" rfl (predicate.reads fits.2) .done
  | aggregate source keys aggregates =>
    refine reads_of_fields encoded ["source", "keys", "aggregates"] (by decide) rfl rfl ?_
    refine .field "source" rfl (source.reads fits.1) ?_
    refine .field "keys" rfl (reads_columns keys fits.2.1) ?_
    exact .field "aggregates" rfl (reads_nodes aggregates fits.2.2) .done
  | distinct source expressions =>
    refine reads_of_fields encoded ["source", "exprs"] (by decide) rfl rfl ?_
    refine .field "source" rfl (source.reads fits.1) ?_
    exact .field "exprs" rfl (reads_nodes expressions fits.2) .done
  | join left right kind conditions =>
    refine reads_of_fields encoded ["left", "right", "join_type", "conditions"] (by decide) rfl rfl ?_
    refine .field "left" rfl (left.reads fits.1) ?_
    refine .field "right" rfl (right.reads fits.2.1) ?_
    refine .field "join_type" rfl kind.reads ?_
    exact .field "conditions" rfl (Json.reads_items conditions
      fun condition member => condition.reads (fits.2.2 condition member)) .done
  | setOperation left right kind =>
    refine reads_of_fields encoded ["left", "right", "kind"] (by decide) rfl rfl ?_
    refine .field "left" rfl (left.reads fits.1) ?_
    refine .field "right" rfl (right.reads fits.2) ?_
    exact .field "kind" rfl kind.reads .done
  | limit source count offset =>
    refine reads_of_fields encoded ["source", "limit", "offset"] (by decide) rfl rfl ?_
    refine .field "source" rfl (source.reads fits.1) ?_
    refine .field "limit" rfl (Json.reads_size count fits.2.1) ?_
    exact .field "offset" rfl (Json.reads_size offset fits.2.2) .done
  | order source keys =>
    refine reads_of_fields encoded ["source", "keys"] (by decide) rfl rfl ?_
    refine .field "source" rfl (source.reads fits.1) ?_
    exact .field "keys" rfl (Json.reads_items keys
      fun key member => key.reads (fits.2 key member)) .done
  | parquetScan path options =>
    refine reads_of_fields encoded ["path", "storage_options"] (by decide) rfl rfl ?_
    refine .field "path" rfl (Json.reads_string path) ?_
    exact .field "storage_options" rfl (reads_options options fits) .done
  | tableScan table =>
    refine reads_of_fields encoded ["data"] (by decide) rfl rfl ?_
    exact .field "data" rfl (table.reads fits) .done
  | partitionScan table rows =>
    obtain ⟨name, named, same⟩ := Option.bind_eq_some_iff.mp encoded
    refine reads_of_fields same ["arg", "num_rows"] (by decide) rfl rfl ?_
    refine .field "arg" rfl (table.reads names name named) ?_
    exact .field "num_rows" rfl (Json.reads_size rows fits) .done
  | catalogScan scan =>
    refine reads_of_payload encoded fun arrangement room enough => ?_
    exact congrArg (Option.map Operator.catalogScan) (scan.reads fits arrangement room enough)
  | parquetSink source path compression rowGroupSize =>
    refine reads_of_fields encoded ["source", "path", "compression", "row_group_size"] (by decide)
      rfl rfl ?_
    refine .field "source" rfl (source.reads fits.1) ?_
    refine .field "path" rfl (Json.reads_string path) ?_
    refine .field "compression" rfl (Json.reads_string compression) ?_
    exact .field "row_group_size" rfl (Json.reads_size rowGroupSize fits.2) .done
  | catalogSink source location properties =>
    refine reads_of_fields encoded ["source", "table_location", "properties"] (by decide) rfl rfl ?_
    refine .field "source" rfl (source.reads fits.1) ?_
    refine .field "table_location" rfl (Json.reads_string location) ?_
    exact .field "properties" rfl (reads_options properties fits.2) .done
  | vectorSink source bucket index region =>
    refine reads_of_fields encoded ["source", "bucket", "index", "region"] (by decide) rfl rfl ?_
    refine .field "source" rfl (source.reads fits) ?_
    refine .field "bucket" rfl (Json.reads_string bucket) ?_
    refine .field "index" rfl (Json.reads_string index) ?_
    exact .text? "region" rfl .done

end Operator

namespace Node

/-- The numbers in the node are machine words, and its options are in order. -/
def Fits (node : Node) : Prop :=
  match node.content with
  | .operator operator => operator.Fits
  | .expression expression => expression.Fits

/-- The node with its table under its name on the workers, if it scans one that has a name. -/
def resolved (names : LazyNames) (node : Node) : Node :=
  match node.content with
  | .operator operator => { node with content := .operator (operator.resolved names) }
  | .expression _ => node

/-- A node is read back, with the tables it scans under the names they are given. -/
theorem reads (names : LazyNames) (node : Node) (fits : node.Fits) (written : Json)
    (encoded : node.encode? names = some written) : Reads decode written (node.resolved names) := by
  obtain ⟨output, content⟩ := node
  cases content with
  | operator operator =>
    obtain ⟨content, found, same⟩ := Option.bind_eq_some_iff.mp encoded
    obtain ⟨payload, encodedBelow, rfl⟩ := Option.map_eq_some_iff.mp found
    obtain rfl := Option.some.inj same
    have read : Reads decodeContent (.choice "Operator" payload)
        (.operator (operator.resolved names)) :=
      Json.reads_choice "Operator" (fun _ _ => rfl)
        ((operator.reads names fits payload encodedBelow).andThen _ _ rfl)
    apply Json.reads_record ["schema", "kind"] (by decide) _ rfl
    refine .field "schema" rfl output.reads ?_
    exact .field "kind" rfl read .done
  | expression expression =>
    obtain rfl := Option.some.inj encoded
    have read : Reads decodeContent (.choice "Expression" expression.encode)
        (.expression expression) :=
      Json.reads_choice "Expression" (fun _ _ => rfl) ((expression.reads fits).andThen _ _ rfl)
    apply Json.reads_record ["schema", "kind"] (by decide) _ rfl
    refine .field "schema" rfl output.reads ?_
    exact .field "kind" rfl read .done

end Node

namespace Arena

/-- The numbers in all nodes are machine words, and their options are in order. -/
def Fits (arena : Arena) : Prop := ∀ node ∈ arena.nodes, node.Fits

/-- The plan with its tables under their names on the workers, as far as they have names. -/
def resolved (names : LazyNames) (arena : Arena) : Arena where
  nodes := arena.nodes.map (Node.resolved names)

/-- Nodes that are written one after the other are read back one after the other. -/
theorem reads_each (names : LazyNames) (nodes : List Node) (fits : ∀ node ∈ nodes, node.Fits)
    (items : List Json) (found : nodes.mapM (Node.encode? names) = some items) :
    List.Forall₂ (Reads Node.decode) items (nodes.map (Node.resolved names)) := by
  induction nodes generalizing items with
  | nil =>
    obtain rfl := Option.some.inj found
    exact .nil
  | cons node rest inductionHypothesis =>
    rw [List.mapM_cons] at found
    obtain ⟨item, encodedNode, found⟩ := Option.bind_eq_some_iff.mp found
    obtain ⟨others, encodedRest, same⟩ := Option.bind_eq_some_iff.mp found
    obtain rfl := Option.some.inj same
    exact .cons (node.reads names (fits node List.mem_cons_self) item encodedNode)
      (inductionHypothesis (fun other member => fits other (List.mem_cons_of_mem node member))
        others encodedRest)

/-- A plan that is written is read back with the names of its tables on the workers. -/
theorem reads (names : LazyNames) (arena : Arena) (fits : arena.Fits) (written : Json)
    (encoded : arena.encode? names = some written) :
    Reads decode written (arena.resolved names) := by
  obtain ⟨items, found, same⟩ := Option.bind_eq_some_iff.mp encoded
  obtain rfl := Option.some.inj same
  apply Json.reads_record ["nodes"] (by decide) _ rfl
  exact .field "nodes" rfl (Json.reads_list (reads_each names arena.nodes fits items found)) .done

end Arena

namespace RootedPlan

/-- A plan that is sent is read back with the names of its tables on the workers. -/
theorem reads (names : LazyNames) (plan : RootedPlan) (fits : plan.arena.Fits)
    (rooted : plan.root.Fits) (written : Json) (encoded : plan.encode? names = some written) :
    Reads decode written { plan with arena := plan.arena.resolved names } := by
  obtain ⟨arena, found, same⟩ := Option.bind_eq_some_iff.mp encoded
  obtain rfl := Option.some.inj same
  apply Json.reads_record ["arena", "root"] (by decide) _ rfl
  refine .field "arena" rfl (plan.arena.reads names fits arena found) ?_
  exact .field "root" rfl (plan.root.reads rooted) .done

end RootedPlan

end Rankwise
