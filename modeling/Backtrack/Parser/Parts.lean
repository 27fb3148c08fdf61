import Backtrack.Grammar

/-!
# Parts of parsers

The parts of a parser are the parser itself, the parsers that it is combined from, and those that
its functions may choose, with their parts.  A caller's function is a part that has no other parts,
and so is a handle.

* `Parser.Contains`, `Grammar.Contains`: the parts of a parser, and of a grammar's definitions.
* `Parser.Variant`: a parser is another one with some of its parts exchanged.
-/

namespace Backtrack

/-- `p.Contains q`: `q` is a part of `p`. -/
inductive Parser.Contains : Parser → Parser → Prop
  | self (p : Parser) : Contains p p
  | seq_first {p q r : Parser} (h : Contains p r) : Contains (.seq p q) r
  | seq_second {p q r : Parser} (h : Contains q r) : Contains (.seq p q) r
  | choice_first {p r : Parser} {ps : List Parser} (h : Contains p r) : Contains (.choice p ps) r
  | choice_other {p q r : Parser} {ps : List Parser} (hq : q ∈ ps) (h : Contains q r) :
    Contains (.choice p ps) r
  | optional {p r : Parser} (h : Contains p r) : Contains (.optional p) r
  | absent {p r : Parser} (h : Contains p r) : Contains (.absent p) r
  | times {p r : Parser} {bounds : Bounds} (h : Contains p r) : Contains (.times p bounds) r
  | map {p r : Parser} {function : Value → Except Fault Value} (h : Contains p r) :
    Contains (.map p function) r
  | withSpan {p r : Parser} (h : Contains p r) : Contains (.withSpan p) r
  | lookingAt_body {p q r : Parser} (h : Contains p r) : Contains (.lookingAt p q) r
  | lookingAt_peek {p q r : Parser} (h : Contains q r) : Contains (.lookingAt p q) r
  | seqBy_body {p r : Parser} {choose : Value → Except Fault Parser} (h : Contains p r) :
    Contains (.seqBy p choose) r
  | seqBy_chosen {p q r : Parser} {choose : Value → Except Fault Parser} {v : Value}
    (hq : choose v = .ok q) (h : Contains q r) : Contains (.seqBy p choose) r
  | lookingAtBy_body {p r : Parser} {choose : Value → Except Fault Parser} (h : Contains p r) :
    Contains (.lookingAtBy p choose) r
  | lookingAtBy_chosen {p q r : Parser} {choose : Value → Except Fault Parser} {v : Value}
    (hq : choose v = .ok q) (h : Contains q r) : Contains (.lookingAtBy p choose) r
  | require {p r : Parser} {error : Span → Except Fault Value} (h : Contains p r) :
    Contains (.require p error) r
  | reject {p r : Parser} {error : Span → Value → Except Fault Value} (h : Contains p r) :
    Contains (.reject p error) r
  | forgive {p r : Parser} (h : Contains p r) : Contains (.forgive p) r
  | traced {p r : Parser} {title : String} (h : Contains p r) : Contains (.traced p title) r

/-- `q` is a part of a definition of the grammar. -/
def Grammar.Contains (g : Grammar) (q : Parser) : Prop :=
  ∃ n p, g.definition? n = some p ∧ p.Contains q

/-! ### Exchanging parts -/

mutual

/-- `p.Variant base rules p'`: `p'` is `p` with parts `q` exchanged for parts `q'` for which
`base q q'` holds.  Every handle has to be exchanged, at least for itself; callers' functions occur
only if `rules` holds, and then the parsers that they run may be exchanged as well. -/
inductive Parser.Variant (base : Parser → Parser → Prop) (rules : Prop) : Parser → Parser → Prop
  | base {p p' : Parser} (h : base p p') : Parser.Variant base rules p p'
  | literal (items : Items) (output : Value) :
    Parser.Variant base rules (.literal items output) (.literal items output)
  | oneOf (group : Items) : Parser.Variant base rules (.oneOf group) (.oneOf group)
  | item : Parser.Variant base rules .item .item
  | empty : Parser.Variant base rules .empty .empty
  | atEnd : Parser.Variant base rules .atEnd .atEnd
  | custom {rule rule' : Rule} (allowed : rules) (h : Rule.Variant base rules rule rule') :
    Parser.Variant base rules (.custom rule) (.custom rule')
  | seq {p p' q q' : Parser} (first : Parser.Variant base rules p p')
    (second : Parser.Variant base rules q q') : Parser.Variant base rules (.seq p q) (.seq p' q')
  | choice {p p' : Parser} {ps ps' : List Parser} (first : Parser.Variant base rules p p')
    (others : Parser.VariantAll base rules ps ps') :
    Parser.Variant base rules (.choice p ps) (.choice p' ps')
  | optional {p p' : Parser} (body : Parser.Variant base rules p p') :
    Parser.Variant base rules (.optional p) (.optional p')
  | absent {p p' : Parser} (body : Parser.Variant base rules p p') :
    Parser.Variant base rules (.absent p) (.absent p')
  | times {p p' : Parser} (body : Parser.Variant base rules p p') (bounds : Bounds) :
    Parser.Variant base rules (.times p bounds) (.times p' bounds)
  | map {p p' : Parser} (body : Parser.Variant base rules p p')
    (function : Value → Except Fault Value) :
    Parser.Variant base rules (.map p function) (.map p' function)
  | withSpan {p p' : Parser} (body : Parser.Variant base rules p p') :
    Parser.Variant base rules (.withSpan p) (.withSpan p')
  | lookingAt {p p' q q' : Parser} (body : Parser.Variant base rules p p')
    (peek : Parser.Variant base rules q q') :
    Parser.Variant base rules (.lookingAt p q) (.lookingAt p' q')
  | seqBy {p p' : Parser} {choose choose' : Value → Except Fault Parser}
    (body : Parser.Variant base rules p p')
    (chosen : ∀ v, Parser.VariantChosen base rules (choose v) (choose' v)) :
    Parser.Variant base rules (.seqBy p choose) (.seqBy p' choose')
  | lookingAtBy {p p' : Parser} {choose choose' : Value → Except Fault Parser}
    (body : Parser.Variant base rules p p')
    (chosen : ∀ v, Parser.VariantChosen base rules (choose v) (choose' v)) :
    Parser.Variant base rules (.lookingAtBy p choose) (.lookingAtBy p' choose')
  | require {p p' : Parser} (body : Parser.Variant base rules p p')
    (error : Span → Except Fault Value) :
    Parser.Variant base rules (.require p error) (.require p' error)
  | reject {p p' : Parser} (body : Parser.Variant base rules p p')
    (error : Span → Value → Except Fault Value) :
    Parser.Variant base rules (.reject p error) (.reject p' error)
  | forgive {p p' : Parser} (body : Parser.Variant base rules p p') :
    Parser.Variant base rules (.forgive p) (.forgive p')
  | traced {p p' : Parser} (body : Parser.Variant base rules p p') (title : String) :
    Parser.Variant base rules (.traced p title) (.traced p' title)

/-- The same for the alternatives of a choice, one by one. -/
inductive Parser.VariantAll (base : Parser → Parser → Prop) (rules : Prop) :
    List Parser → List Parser → Prop
  | nil : Parser.VariantAll base rules [] []
  | cons {p p' : Parser} {ps ps' : List Parser} (first : Parser.Variant base rules p p')
    (others : Parser.VariantAll base rules ps ps') :
    Parser.VariantAll base rules (p :: ps) (p' :: ps')

/-- The same for what a caller's function returns where a parser is expected. -/
inductive Parser.VariantChosen (base : Parser → Parser → Prop) (rules : Prop) :
    Except Fault Parser → Except Fault Parser → Prop
  | error (f : Fault) : Parser.VariantChosen base rules (.error f) (.error f)
  | ok {p p' : Parser} (h : Parser.Variant base rules p p') :
    Parser.VariantChosen base rules (.ok p) (.ok p')

/-- The same for the parsers that a caller's function runs. -/
inductive Rule.Variant (base : Parser → Parser → Prop) (rules : Prop) : Rule → Rule → Prop
  | finish (o : Outcome) : Rule.Variant base rules (.finish o) (.finish o)
  | raise (f : Fault) : Rule.Variant base rules (.raise f) (.raise f)
  | act {next next' : Answer → Rule} (operation : Operation) (stream : Nat)
    (h : ∀ a, Rule.Variant base rules (next a) (next' a)) :
    Rule.Variant base rules (.act operation stream next) (.act operation stream next')
  | parse {p p' : Parser} {next next' : Except Fault Outcome → Rule} (stream : Nat)
    (body : Parser.Variant base rules p p')
    (h : ∀ r, Rule.Variant base rules (next r) (next' r)) :
    Rule.Variant base rules (.parse p stream next) (.parse p' stream next')

end

variable {base : Parser → Parser → Prop} {rules : Prop}

mutual

/-- Exchanging the parts back. -/
theorem Parser.Variant.symm : ∀ {p p' : Parser}, p.Variant base rules p' →
    p'.Variant (fun q q' => base q' q) rules p
  | _, _, .base h => .base h
  | _, _, .literal items output => .literal items output
  | _, _, .oneOf group => .oneOf group
  | _, _, .item => .item
  | _, _, .empty => .empty
  | _, _, .atEnd => .atEnd
  | _, _, .custom allowed h => .custom allowed h.symm
  | _, _, .seq first second => .seq first.symm second.symm
  | _, _, .choice first others => .choice first.symm others.symm
  | _, _, .optional body => .optional body.symm
  | _, _, .absent body => .absent body.symm
  | _, _, .times body bounds => .times body.symm bounds
  | _, _, .map body function => .map body.symm function
  | _, _, .withSpan body => .withSpan body.symm
  | _, _, .lookingAt body peek => .lookingAt body.symm peek.symm
  | _, _, .seqBy body chosen => .seqBy body.symm fun v => (chosen v).symm
  | _, _, .lookingAtBy body chosen => .lookingAtBy body.symm fun v => (chosen v).symm
  | _, _, .require body error => .require body.symm error
  | _, _, .reject body error => .reject body.symm error
  | _, _, .forgive body => .forgive body.symm
  | _, _, .traced body title => .traced body.symm title

theorem Parser.VariantAll.symm : ∀ {ps ps' : List Parser}, Parser.VariantAll base rules ps ps' →
    Parser.VariantAll (fun q q' => base q' q) rules ps' ps
  | _, _, .nil => .nil
  | _, _, .cons first others => .cons first.symm others.symm

theorem Parser.VariantChosen.symm : ∀ {r r' : Except Fault Parser},
    Parser.VariantChosen base rules r r' →
    Parser.VariantChosen (fun q q' => base q' q) rules r' r
  | _, _, .error f => .error f
  | _, _, .ok h => .ok h.symm

theorem Rule.Variant.symm : ∀ {rule rule' : Rule}, rule.Variant base rules rule' →
    rule'.Variant (fun q q' => base q' q) rules rule
  | _, _, .finish o => .finish o
  | _, _, .raise f => .raise f
  | _, _, .act operation stream h => .act operation stream fun a => (h a).symm
  | _, _, .parse stream body h => .parse stream body.symm fun r => (h r).symm

end

mutual

/-- A parser is a variant of itself, if handles may be exchanged for themselves and its callers'
functions are allowed. -/
theorem Parser.variant_self (hbase : ∀ n, base (.handle n) (.handle n)) :
    ∀ p : Parser, (∀ rule, p.Contains (.custom rule) → rules) → p.Variant base rules p
  | .literal items output, _ => .literal items output
  | .oneOf group, _ => .oneOf group
  | .item, _ => .item
  | .empty, _ => .empty
  | .atEnd, _ => .atEnd
  | .custom rule, h => .custom (h rule (.self _)) (Rule.variant_self hbase (h rule (.self _)) rule)
  | .seq first second, h =>
    .seq (Parser.variant_self hbase first fun r hr => h r (.seq_first hr))
      (Parser.variant_self hbase second fun r hr => h r (.seq_second hr))
  | .choice first others, h =>
    .choice (Parser.variant_self hbase first fun r hr => h r (.choice_first hr))
      (Parser.variantAll_self hbase others fun _ hq r hr => h r (.choice_other hq hr))
  | .optional parser, h =>
    .optional (Parser.variant_self hbase parser fun r hr => h r (.optional hr))
  | .absent parser, h => .absent (Parser.variant_self hbase parser fun r hr => h r (.absent hr))
  | .times parser bounds, h =>
    .times (Parser.variant_self hbase parser fun r hr => h r (.times hr)) bounds
  | .map parser function, h =>
    .map (Parser.variant_self hbase parser fun r hr => h r (.map hr)) function
  | .withSpan parser, h =>
    .withSpan (Parser.variant_self hbase parser fun r hr => h r (.withSpan hr))
  | .lookingAt parser peek, h =>
    .lookingAt (Parser.variant_self hbase parser fun r hr => h r (.lookingAt_body hr))
      (Parser.variant_self hbase peek fun r hr => h r (.lookingAt_peek hr))
  | .seqBy parser choose, h =>
    .seqBy (Parser.variant_self hbase parser fun r hr => h r (.seqBy_body hr)) fun v =>
      Parser.variantChosen_self hbase (choose v) fun _ hq r hr => h r (.seqBy_chosen hq hr)
  | .lookingAtBy parser choose, h =>
    .lookingAtBy (Parser.variant_self hbase parser fun r hr => h r (.lookingAtBy_body hr)) fun v =>
      Parser.variantChosen_self hbase (choose v) fun _ hq r hr => h r (.lookingAtBy_chosen hq hr)
  | .require parser error, h =>
    .require (Parser.variant_self hbase parser fun r hr => h r (.require hr)) error
  | .reject parser error, h =>
    .reject (Parser.variant_self hbase parser fun r hr => h r (.reject hr)) error
  | .forgive parser, h => .forgive (Parser.variant_self hbase parser fun r hr => h r (.forgive hr))
  | .traced parser title, h =>
    .traced (Parser.variant_self hbase parser fun r hr => h r (.traced hr)) title
  | .handle n, _ => .base (hbase n)

theorem Parser.variantAll_self (hbase : ∀ n, base (.handle n) (.handle n)) :
    ∀ ps : List Parser, (∀ q ∈ ps, ∀ rule, q.Contains (.custom rule) → rules) →
      Parser.VariantAll base rules ps ps
  | [], _ => .nil
  | p :: ps, h =>
    .cons (Parser.variant_self hbase p (h p List.mem_cons_self))
      (Parser.variantAll_self hbase ps fun q hq => h q (List.mem_cons_of_mem p hq))

theorem Parser.variantChosen_self (hbase : ∀ n, base (.handle n) (.handle n)) :
    ∀ r : Except Fault Parser, (∀ q, r = .ok q → ∀ rule, q.Contains (.custom rule) → rules) →
      Parser.VariantChosen base rules r r
  | .error f, _ => .error f
  | .ok p, h => .ok (Parser.variant_self hbase p (h p rfl))

theorem Rule.variant_self (hbase : ∀ n, base (.handle n) (.handle n)) (allowed : rules) :
    ∀ rule : Rule, rule.Variant base rules rule
  | .finish o => .finish o
  | .raise f => .raise f
  | .act operation stream next =>
    .act operation stream fun a => Rule.variant_self hbase allowed (next a)
  | .parse parser stream next =>
    .parse stream (Parser.variant_self hbase parser fun _ _ => allowed) fun r =>
      Rule.variant_self hbase allowed (next r)

end

end Backtrack
