import Crosswalk.Document.Value
import Crosswalk.Filter.Pipeline
import Crosswalk.Template.Compile

/-!
# Filling templates

A template is filled in this order: the queries, then the filter expressions, then the variable
references. A query or a reference is filled with a text as it is; a filter expression with the
last text of its chain. While expressions are evaluated, the quotes of queried texts stand as
words, so that they end no argument.

* `Subject`: the value that an entry reads.
* `Modifier.evaluate`: the text that a modifier gives for a subject; nothing when there is nothing
  to write, so the static text of a template never stands alone.
-/

namespace Crosswalk

open Text

/-! ## Subjects and variables -/

/-- The value that an entry reads. -/
structure Subject where
  /-- Whether there is a value, the empty text being none. -/
  present : Bool
  text : Text
  /-- The value as canonical xml. -/
  xml : Text
  /-- What the variable `value` stands for, if the value is a scalar or a node. -/
  bound? : Option Text

namespace Subject

def none : Subject := ⟨false, [], [], Option.none⟩

/-- Of a list, the first item is read. -/
def ofValue (v : Value) : Subject :=
  let plain := fun (v : Value) =>
    let s := v.scalarText
    if v.isNull then Subject.none
    else ⟨s != [], s, s, if v.isScalar then some s else Option.none⟩
  match v with
  | .list items => (items.head?.map plain).getD .none
  | v => plain v

end Subject

/-- Variables in order; one that is no scalar has no text. -/
abbrev Variables := Pairs Text (Option Text)

/-- The variables that a template may use. -/
def Variables.texts (vs : Variables) : Pairs Text Text :=
  vs.filterMap fun p => p.2.map fun s => (p.1, s)

/-- The variables and the tables of one conversion. -/
structure Context where
  vars : Variables
  tables : Pairs Text (Pairs Text Text)

/-- The context with the variable `value` bound to a subject. -/
def Context.bind (c : Context) (subject : Subject) : Context :=
  { c with vars := c.vars.put "value" subject.bound? }

/-- The scope of filters for a subject, which is the variable `value`. -/
def Context.scope (c : Context) (subject : Subject) : Filter.Scope :=
  ⟨Variables.texts (c.bind subject).vars, c.tables⟩

/-- What a query finds first, as a text; without a document there are no queries. -/
abbrev Lookup := Option (Text → Text)

namespace Template

/-! ## Quotes -/

def doubleQuoteWord : Text := "__DQUOTE__"

def singleQuoteWord : Text := "__SQUOTE__"

def hideQuotes (s : Text) : Text :=
  replaceAll ['\''] singleQuoteWord (replaceAll ['"'] doubleQuoteWord s)

def showQuotes (s : Text) : Text :=
  replaceAll singleQuoteWord ['\''] (replaceAll doubleQuoteWord ['"'] s)

/-! ## Filling -/

/-- A text without `n` characters at each end. -/
def inner (n : Nat) (s : Text) : Text := (s.take (s.length - n)).drop n

/-- Every key of the pairs replaced by its value, one key after another. -/
def fill (ps : Pairs Text Text) (s : Text) : Text :=
  ps.foldl (fun s p => replaceAll p.1 p.2 s) s

/-- The texts of the queries of a template; reserved placeholders are empty. -/
def queried (m : Modifier) (lookup : Lookup) : Pairs Text Text :=
  Pairs.ofList (m.replace.map fun token =>
    (token,
      match lookup with
      | some find => if reservedTokens.elem token then [] else find (inner 2 token)
      | none => []))

/-- The variables as references. -/
def references (vars : Pairs Text Text) : Pairs Text Text :=
  vars.map fun p => (reference p.1, p.2)

/-- Queries that are also references are filled by the variable. -/
def preferReferences (refs queries : Pairs Text Text) : Pairs Text Text :=
  queries.map fun p => (p.1, (Pairs.get? p.1 refs).getD p.2)

/-- The filter expressions that are no references, each with its flag. -/
def chainsOf (m : Modifier) (refs : Pairs Text Text) : List (Text × Bool) :=
  let flags := if m.hasReplace = [] then List.replicate m.filters.length false else m.hasReplace
  (m.filters.zip flags).filter fun p => !Pairs.has p.1 refs

/-- The texts of the filter expressions, each under the expression with its queries filled. -/
def evaluated [Host] (scope : Filter.Scope) (queries : Pairs Text Text)
    (chains : List (Text × Bool)) : Except Filter.NotWhole (Pairs Text Text) :=
  chains.foldlM (fun results chain => do
    let expression := if chain.2 then fill queries chain.1 else chain.1
    let result ← Filter.evaluate scope (inner 3 expression)
    pure (results.put expression result)) []

/-- Whether a filled template says more than its static text. -/
def saysMore (m : Modifier) (s : Text) : Bool :=
  s != [] && (isBlankText m.staticText || s != m.staticText)

/-- The filled template before and after its references. -/
def fillAll [Host] (m : Modifier) (scope : Filter.Scope) (lookup : Lookup) :
    Except Filter.NotWhole Text := do
  let refs := references scope.vars
  let queries := preferReferences refs (queried m lookup)
  let chains := chainsOf m refs
  let pattern := m.pattern.getD []
  if chains = [] then pure (fill refs (fill queries pattern))
  else
    let hidden := queries.map fun p => (p.1, hideQuotes p.2)
    let results ← evaluated scope hidden chains
    pure (fill refs (showQuotes (fill results (fill hidden pattern))))

/-- The filled template, if it says more than its static text. -/
def render [Host] (m : Modifier) (scope : Filter.Scope) (lookup : Lookup) :
    Except Filter.NotWhole (Option Text) :=
  (fillAll m scope lookup).map fun s => if saysMore m s then some s else none

end Template

namespace Modifier

open Template

/-- The pattern that stands for the xml of a node. -/
def xmlPattern : Text := reference "xml"

/-- A text between the texts around a template. -/
def wrap (m : Modifier) (body : Text) : Text := m.prepend.getD [] ++ body ++ m.append.getD []

/-- What is written for a subject between the texts around the template. -/
def body [Host] (m : Modifier) (subject : Subject) (context : Context) (lookup : Lookup)
    (asXml : Bool) : Except Filter.NotWhole (Option Text) :=
  let whole (s : Text) : Option Text := if subject.present then some s else none
  match m.pattern.getD [] with
  | [] => .ok (whole (if asXml then subject.xml else subject.text))
  | pattern =>
    if pattern = xmlPattern && asXml then .ok (whole subject.xml)
    else render m (context.scope subject) lookup

def evaluate [Host] (m : Modifier) (subject : Subject) (context : Context) (lookup : Lookup)
    (asXml : Bool) : Except Filter.NotWhole (Option Text) :=
  match m.raw, m.val with
  | some raw, _ => .ok (some raw)
  | none, some val => .ok (if subject.present then some val else none)
  | none, none =>
    (m.body subject context lookup asXml).map fun body =>
      (body.bind nonEmpty).map m.wrap

end Modifier
end Crosswalk
