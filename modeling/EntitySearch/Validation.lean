import EntitySearch.Paging

/-!
# Validation of search schemes

The gaps that would make parts of a scheme be passed over without notice: options and columns
without an attribute, chains with incomplete joins, useless page sizes, and entities hidden behind
others of the same name.
-/

namespace EntitySearch

/-- A fault as it is reported. -/
structure Problem where
  field : String
  message : String
  deriving DecidableEq

/-- The problems of a scheme, in the order found. -/
abbrev Report := List Problem

/-- A fault of a scheme. -/
inductive Fault where
  | unnamedEntity
  | optionWithoutAttribute (index : Nat)
  | optionChainGap (index : Nat)
  | columnWithoutAttribute (index : Nat)
  | columnChainGap (index : Nat)
  | pageSize (size : Double)
  deriving DecidableEq

namespace Problem

/-- The problem in one line. -/
def text (problem : Problem) : String :=
  problem.field ++ ": " ++ problem.message

def document (problem : Problem) : Json :=
  .object [("field", .text problem.field), ("message", .text problem.message)]

end Problem

namespace Report

/-- All problems, one a line. -/
def text (report : Report) : String :=
  "Validation failed with " ++ Text.natText report.length ++ " error(s):" ++
    String.join (report.map fun problem => "\n  - " ++ problem.text)

end Report

namespace Fault

/-- The place of a filter option. -/
def optionField (entity : String) (index : Nat) : String :=
  entity ++ ".FilterOptions[" ++ Text.natText index ++ "]"

/-- The place of a table column. -/
def columnField (entity : String) (index : Nat) : String :=
  entity ++ ".TableColumns[" ++ Text.natText index ++ "]"

/-- What is wrong with a chain that has a gap. -/
def chainGapMessage : String :=
  "RelatedTo chain needs EntityName, FromAttribute and ToAttribute for every join"

def problem (entity : String) : Fault → Problem
  | unnamedEntity => ⟨"LogicalName", "entity has no logical name"⟩
  | optionWithoutAttribute index => ⟨optionField entity index, "filter option has no AttributeName"⟩
  | optionChainGap index => ⟨optionField entity index, chainGapMessage⟩
  | columnWithoutAttribute index => ⟨columnField entity index, "table column has no AttributeName"⟩
  | columnChainGap index => ⟨columnField entity index, chainGapMessage⟩
  | pageSize size =>
      ⟨entity ++ ".Pagination.List", "page size " ++ size.signedNumeral ++
        " is not a positive number"⟩

/-- A chain of several links has an incomplete join. -/
def hasGap (joins : Chain Link) : Bool :=
  1 < joins.length && joins.joinPath?.isNone

/-- The fault of a filter option, if it has one. -/
def ofOption? (index : Nat) (option : FilterOption) : Option Fault :=
  if option.isCategory then none
  else if (Text.nonBlank? option.target.attributeName).isNone then
    some (optionWithoutAttribute index)
  else if hasGap option.joins then some (optionChainGap index)
  else none

/-- The fault of a table column, if it has one. -/
def ofColumn? (index : Nat) (column : TableColumn) : Option Fault :=
  if column.target.shownAttributes.isEmpty then some (columnWithoutAttribute index)
  else if hasGap column.joins then some (columnChainGap index)
  else none

/-- The fault of a page size, if it has one: it is not finite, or less than one without its
fraction. -/
def ofPageSize? (size : Double) : Option Fault :=
  if ! size.isFinite || size.truncated.isBelow .one then some (pageSize size) else none

def pageSizes (entity : EntityScheme) : List Double :=
  (entity.resultView.paging.bind (·.sizes)).getD []

def ofEntity (entity : EntityScheme) : List Fault :=
  (if Text.isBlank entity.logicalName then [unnamedEntity] else []) ++
    (entity.filterOptions.mapIdx ofOption?).filterMap id ++
    (entity.resultView.columns.mapIdx ofColumn?).filterMap id ++
    (pageSizes entity).filterMap ofPageSize?

end Fault

namespace EntityScheme

/-- The name of an entity in reports. -/
def reportName (entity : EntityScheme) : String :=
  if Text.isBlank entity.logicalName then "<unnamed>" else entity.logicalName

def report (entity : EntityScheme) : Report :=
  (Fault.ofEntity entity).map (Fault.problem entity.reportName)

end EntityScheme

namespace Settings

/-- The problem of an entity whose name another one has before it. -/
def repeatedEntity (name : String) : Problem :=
  ⟨name ++ ".LogicalName", "entity is configured more than once"⟩

/-- The problems of entities that follow others with given names. -/
def reportAfter (earlier : List String) : List EntityScheme → Report
  | [] => []
  | entity :: rest =>
      (if earlier.contains entity.logicalName then [repeatedEntity entity.logicalName] else []) ++
        entity.report ++ reportAfter (entity.logicalName :: earlier) rest

def report (settings : Settings) : Report :=
  reportAfter [] settings.entities

end Settings

end EntitySearch
