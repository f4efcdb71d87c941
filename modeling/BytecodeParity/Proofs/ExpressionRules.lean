import BytecodeParity.Config

/-!
Rules that libraries of regular expressions are documented with, as far as a group between two anchors
needs them, and a small library that keeps them.
-/

set_option autoImplicit false

namespace BytecodeParity

-- What the documentation of a library tells apart: texts that are expressions, those among them that stay
-- within the library's limits, texts that anchors can be put before and after, and where a text matches.
-- Places in a name are counted in characters.
structure ExpressionRules where
  IsExpression : String → Prop
  Fits : String → Prop
  IsItem : String → Prop
  Spans : (text name : String) → (first last : Nat) → Prop

namespace ExpressionRules

-- The text is an expression that does not end within a comment: a parenthesis behind it closes what is open.
def Closed (rules : ExpressionRules) (text : String) : Prop :=
  rules.IsExpression text ∧ ¬ rules.IsExpression (text ++ ")")

structure Describe (rules : ExpressionRules) (library : ExpressionLibrary) : Prop where
  /-- An expression within the limits is compiled, and every other text is refused. -/
  compiles : ∀ text, (∃ found, library.compile text = .ok found) ↔ rules.IsExpression text ∧ rules.Fits text
  /-- A search looks for a match anywhere in the name. -/
  finds : ∀ text found, library.compile text = .ok found →
    ∀ name, found.accepts name ↔ ∃ first last, rules.Spans text name first last
  item : ∀ text, rules.IsItem text → rules.IsExpression text
  /-- A group holds an expression, and flags that are set in it end with it. -/
  group : ∀ inner, rules.Closed inner → rules.IsItem ("(?:" ++ inner ++ ")")
  group_spans : ∀ inner, rules.Closed inner → ∀ name first last,
    rules.Spans ("(?:" ++ inner ++ ")") name first last ↔ rules.Spans inner name first last
  start : ∀ text, rules.IsItem text → rules.IsItem ("^" ++ text)
  /-- The mark in front matches at the beginning of a name. -/
  start_spans : ∀ text, rules.IsItem text → ∀ name first last,
    rules.Spans ("^" ++ text) name first last ↔ first = 0 ∧ rules.Spans text name first last
  finish : ∀ text, rules.IsItem text → rules.IsItem (text ++ "$")
  /-- The mark behind matches at the end of a name. -/
  finish_spans : ∀ text, rules.IsItem text → ∀ name first last,
    rules.Spans (text ++ "$") name first last ↔ last = name.length ∧ rules.Spans text name first last
  /-- A group that is opened is closed again: an unclosed group is an error. -/
  opened : ∀ rest, rules.IsExpression ("^(?:" ++ rest) →
    ∃ inner behind, rest = inner ++ ")" ++ behind ∧ rules.Closed inner
  /-- A parenthesis that closes no group is an error, whatever stands behind it. -/
  unopened : ∀ inner behind, rules.Closed inner → ¬ rules.IsExpression (inner ++ ")" ++ behind)

end ExpressionRules

namespace PlainExpression

abbrev Meaning := List Char → Nat → Nat → Bool

-- The last three are open groups, read up to the parenthesis, the question mark and the colon.
inductive Symbol where
  | item (meaning : Meaning)
  | bar
  | opened
  | marked
  | grouped

namespace Symbol

def isClosed : Symbol → Bool
  | item _ | bar => true
  | opened | marked | grouped => false

def isItem : Symbol → Bool
  | item _ => true
  | _ => false

end Symbol

def letter (c : Char) : Meaning := fun name first last => name[first]? == some c && last == first + 1

def start : Meaning := fun _ first last => first == 0 && last == first

def finish : Meaning := fun name first last => first == name.length && last == first

def sequence : List Meaning → Meaning
  | [], name, first, last => first == last && last ≤ name.length
  | meaning :: rest, name, first, last =>
      (List.range (name.length + 1)).any fun between => meaning name first between && sequence rest name between last

def branches : List Symbol → List (List Meaning)
  | [] => [[]]
  | .item meaning :: rest =>
      match branches rest with
      | [] => [[meaning]]
      | branch :: others => (meaning :: branch) :: others
  | _ :: rest => [] :: branches rest

def choice (symbols : List Symbol) : Meaning := fun name first last =>
  first ≤ name.length && (branches symbols).any fun branch => sequence branch name first last

def close : List Symbol → List Symbol → Option (List Symbol)
  | _, [] => none
  | inside, .item meaning :: stack => close (.item meaning :: inside) stack
  | inside, .bar :: stack => close (.bar :: inside) stack
  | _, .marked :: _ => none
  | inside, .opened :: stack | inside, .grouped :: stack => some (.item (choice inside) :: stack)

def symbol? : Char → Option Symbol
  | '(' => some .opened
  | '|' => some .bar
  | '^' => some (.item start)
  | '$' => some (.item finish)
  | c => if c.isAlphanum then some (.item (letter c)) else none

def push (stack : List Symbol) (c : Char) : Option (List Symbol) :=
  if c = ')' then close [] stack else (symbol? c).map fun symbol => symbol :: stack

def step : List Symbol → Char → Option (List Symbol)
  | .marked :: stack, c => if c = ':' then some (.grouped :: stack) else none
  | .opened :: stack, c => if c = '?' then some (.marked :: stack) else push (.opened :: stack) c
  | stack, c => push stack c

def read : List Symbol → List Char → Option (List Symbol)
  | stack, [] => some stack
  | stack, c :: cs => (step stack c).bind fun stack => read stack cs

-- A library of letters, digits, groups, alternatives and the two anchors.
def library : ExpressionLibrary where
  compile := fun text =>
    match read [] text.toList with
    | none => .error "regex parse error"
    | some stack =>
        if stack.all Symbol.isClosed then
          .ok ⟨fun name => (List.range (name.length + 1)).any fun first =>
            (List.range (name.length + 1)).any fun last => choice stack.reverse name.toList first last⟩
        else .error "unclosed group"

def rules : ExpressionRules where
  IsExpression := fun text => ∃ stack, read [] text.toList = some stack ∧ stack.all Symbol.isClosed
  Fits := fun _ => True
  IsItem := fun text => ∃ stack, read [] text.toList = some stack ∧ stack.all Symbol.isItem
  Spans := fun text name first last => ∃ stack, read [] text.toList = some stack ∧ stack.all Symbol.isClosed ∧
    choice stack.reverse name.toList first last

section Reading

variable {stack below out : List Symbol}

theorem read_append (stack : List Symbol) (front cs : List Char) :
    read stack (front ++ cs) = (read stack front).bind fun between => read between cs := by
  induction front generalizing stack with
  | nil => rfl
  | cons c front ih =>
      rw [List.cons_append, read, read]
      cases step stack c with
      | none => rfl
      | some next => exact ih next

theorem close_framed (inside : List Symbol) (closes : close inside stack = some out) :
    close inside (stack ++ below) = some (out ++ below) := by
  induction stack generalizing inside with
  | nil => cases closes
  | cons symbol stack ih =>
      cases symbol with
      | item meaning => exact ih _ closes
      | bar => exact ih _ closes
      | marked => cases closes
      | opened | grouped =>
          cases closes
          rfl

theorem push_framed (stack : List Symbol) {c : Char} (pushes : push stack c = some out) :
    push (stack ++ below) c = some (out ++ below) := by
  rw [push] at pushes ⊢
  split at pushes
  · next isClosing =>
      rw [if_pos isClosing]
      exact close_framed [] pushes
  · next other =>
      obtain ⟨symbol, isSymbol, rfl⟩ := Option.map_eq_some_iff.mp pushes
      rw [if_neg other, isSymbol]
      rfl

theorem step_framed (waits : ∀ rest, below ≠ .marked :: rest) {c : Char} (steps : step stack c = some out) :
    step (stack ++ below) c = some (out ++ below) := by
  cases stack with
  | nil =>
      -- The step looks at the stack below. An open group there sees a mark only in a question mark, and that
      -- makes no step by itself.
      have pushes : push below c = some (out ++ below) := push_framed [] steps
      cases below with
      | nil => exact pushes
      | cons symbol rest =>
          cases symbol with
          | marked => exact absurd rfl (waits rest)
          | opened =>
              rw [List.nil_append, step, if_neg]
              · exact pushes
              · rintro rfl
                cases steps
          | item | bar | grouped => exact pushes
  | cons symbol stack =>
      cases symbol with
      | marked =>
          simp only [step, List.cons_append] at steps ⊢
          split at steps
          · next isEnd =>
              cases steps
              rw [if_pos isEnd]
              rfl
          · cases steps
      | opened =>
          simp only [step, List.cons_append] at steps ⊢
          split at steps
          · next isMark =>
              cases steps
              rw [if_pos isMark]
              rfl
          · next other =>
              rw [if_neg other]
              exact push_framed _ steps
      | item | bar | grouped => exact push_framed _ steps

theorem read_framed (stack : List Symbol) (waits : ∀ rest, below ≠ .marked :: rest) (cs : List Char)
    (reads : read stack cs = some out) : read (stack ++ below) cs = some (out ++ below) := by
  induction cs generalizing stack with
  | nil =>
      cases reads
      rfl
  | cons c cs ih =>
      rw [read] at reads ⊢
      obtain ⟨next, steps, reads⟩ := Option.bind_eq_some_iff.mp reads
      rw [step_framed waits steps]
      exact ih _ reads

theorem close_unframed (inside result : List Symbol)
    (closes : close inside (stack ++ .grouped :: below) = some result) :
    stack.all Symbol.isClosed ∨ ∃ out, close inside stack = some out ∧ result = out ++ .grouped :: below := by
  induction stack generalizing inside with
  | nil => exact .inl rfl
  | cons symbol stack ih =>
      cases symbol with
      | item meaning => exact ih _ closes
      | bar => exact ih _ closes
      | marked => cases closes
      | opened | grouped =>
          cases closes
          exact .inr ⟨_, rfl, rfl⟩

theorem push_unframed (stack : List Symbol) {c : Char} {result : List Symbol}
    (pushes : push (stack ++ .grouped :: below) c = some result) :
    (c = ')' ∧ stack.all Symbol.isClosed) ∨ ∃ out, push stack c = some out ∧ result = out ++ .grouped :: below := by
  rw [push] at pushes ⊢
  split at pushes
  · next isClosing =>
      rw [if_pos isClosing]
      exact (close_unframed [] result pushes).imp (fun closed => ⟨isClosing, closed⟩) id
  · next other =>
      obtain ⟨symbol, isSymbol, rfl⟩ := Option.map_eq_some_iff.mp pushes
      rw [if_neg other, isSymbol]
      exact .inr ⟨_, rfl, rfl⟩

theorem step_unframed {c : Char} {result : List Symbol} (steps : step (stack ++ .grouped :: below) c = some result) :
    (c = ')' ∧ stack.all Symbol.isClosed) ∨ ∃ out, step stack c = some out ∧ result = out ++ .grouped :: below := by
  cases stack with
  | nil => exact push_unframed [] steps
  | cons symbol stack =>
      cases symbol with
      | marked =>
          simp only [step, List.cons_append] at steps ⊢
          split at steps
          · next isEnd =>
              cases steps
              rw [if_pos isEnd]
              exact .inr ⟨_, rfl, rfl⟩
          · cases steps
      | opened =>
          simp only [step, List.cons_append] at steps ⊢
          split at steps
          · next isMark =>
              cases steps
              rw [if_pos isMark]
              exact .inr ⟨_, rfl, rfl⟩
          · next other =>
              rw [if_neg other]
              exact push_unframed (.opened :: stack) steps
      | item | bar | grouped => exact push_unframed (_ :: stack) steps

theorem read_grouped (stack below : List Symbol) (cs : List Char) (result : List Symbol)
    (reads : read (stack ++ .grouped :: below) cs = some result) (closed : result.all Symbol.isClosed) :
    ∃ inner behind out, cs = inner ++ ')' :: behind ∧ read stack inner = some out ∧ out.all Symbol.isClosed := by
  induction cs generalizing stack with
  | nil =>
      cases reads
      simp [Symbol.isClosed] at closed
  | cons c cs ih =>
      rw [read] at reads
      obtain ⟨next, steps, reads⟩ := Option.bind_eq_some_iff.mp reads
      rcases step_unframed steps with ⟨rfl, isClosed⟩ | ⟨out, alone, rfl⟩
      · exact ⟨[], cs, stack, rfl, rfl, isClosed⟩
      · obtain ⟨inner, behind, last, rfl, inside, isClosed⟩ := ih _ reads
        refine ⟨c :: inner, behind, last, rfl, ?_, isClosed⟩
        rw [read, alone]
        exact inside

theorem close_closed (inside : List Symbol) (closed : stack.all Symbol.isClosed) :
    close inside (stack ++ below) = close (stack.reverse ++ inside) below := by
  induction stack generalizing inside with
  | nil => rfl
  | cons symbol stack ih =>
      obtain ⟨isClosed, closed⟩ := Bool.and_eq_true_iff.mp closed
      rw [List.reverse_cons, List.append_assoc, List.singleton_append]
      cases symbol with
      | item meaning => exact ih _ closed
      | bar => exact ih _ closed
      | opened | marked | grouped => cases isClosed

theorem step_closing (below : List Symbol) (closed : stack.all Symbol.isClosed)
    (settled : step below ')' = push below ')') : step (stack ++ below) ')' = close stack.reverse below := by
  have pushes : push (stack ++ below) ')' = close stack.reverse below := by
    rw [push, if_pos rfl, close_closed [] closed, List.append_nil]
  cases stack with
  | nil => exact settled.trans pushes
  | cons symbol stack =>
      cases symbol with
      | item | bar => exact pushes
      | opened | marked | grouped => cases (Bool.and_eq_true_iff.mp closed).1

theorem step_of_closed (closed : stack.all Symbol.isClosed) : step stack ')' = none := by
  simpa [close] using step_closing [] closed rfl

theorem step_group (closed : stack.all Symbol.isClosed) :
    step (stack ++ .grouped :: below) ')' = some (.item (choice stack.reverse) :: below) :=
  step_closing (.grouped :: below) closed rfl

end Reading

section Meanings

variable {name : List Char} {first last : Nat}

theorem sequence_start (meanings : List Meaning) :
    sequence (start :: meanings) name first last ↔ first = 0 ∧ sequence meanings name first last := by
  simp only [sequence, start, List.any_eq_true, List.mem_range, Bool.and_eq_true, beq_iff_eq]
  constructor
  · rintro ⟨between, _, ⟨isFirst, rfl⟩, rest⟩
    exact ⟨isFirst, rest⟩
  · rintro ⟨rfl, rest⟩
    exact ⟨0, Nat.zero_lt_succ _, ⟨rfl, rfl⟩, rest⟩

theorem sequence_finish (meanings : List Meaning) :
    sequence (meanings ++ [finish]) name first last ↔ last = name.length ∧ sequence meanings name first last := by
  induction meanings generalizing first with
  | nil =>
      simp only [List.nil_append, sequence, finish, List.any_eq_true, List.mem_range, Bool.and_eq_true, beq_iff_eq,
        decide_eq_true_eq]
      constructor
      · rintro ⟨between, _, ⟨rfl, rfl⟩, rfl, within⟩
        exact ⟨rfl, rfl, within⟩
      · rintro ⟨rfl, rfl, within⟩
        exact ⟨_, Nat.lt_succ_self _, ⟨rfl, rfl⟩, rfl, within⟩
  | cons meaning meanings ih =>
      simp only [List.cons_append, sequence, List.any_eq_true, Bool.and_eq_true, ih]
      constructor
      · rintro ⟨between, inName, here, isLast, rest⟩
        exact ⟨isLast, between, inName, here, rest⟩
      · rintro ⟨isLast, between, inName, here, rest⟩
        exact ⟨between, inName, here, isLast, rest⟩

theorem sequence_within (meanings : List Meaning) (spans : sequence meanings name first last) :
    last ≤ name.length := by
  induction meanings generalizing first with
  | nil =>
      simp only [sequence, Bool.and_eq_true, decide_eq_true_eq] at spans
      exact spans.2
  | cons meaning meanings ih =>
      simp only [sequence, List.any_eq_true, Bool.and_eq_true] at spans
      obtain ⟨between, _, _, rest⟩ := spans
      exact ih rest

theorem choice_within (symbols : List Symbol) (spans : choice symbols name first last) :
    first ≤ name.length ∧ last ≤ name.length := by
  simp only [choice, Bool.and_eq_true, decide_eq_true_eq, List.any_eq_true] at spans
  obtain ⟨within, branch, _, rest⟩ := spans
  exact ⟨within, sequence_within branch rest⟩

theorem choice_items (meanings : List Meaning) :
    choice (meanings.map .item) name first last ↔ first ≤ name.length ∧ sequence meanings name first last := by
  have single : branches (meanings.map .item) = [meanings] := by
    induction meanings with
    | nil => rfl
    | cons meaning meanings ih => rw [List.map_cons, branches, ih]
  simp [choice, single]

theorem choice_group (symbols : List Symbol) :
    choice [.item (choice symbols)] name first last ↔ choice symbols name first last := by
  have opened : choice ([choice symbols].map .item) name first last ↔ _ := choice_items [choice symbols]
  simp only [List.map_cons, List.map_nil, sequence, List.any_eq_true, List.mem_range, Bool.and_eq_true, beq_iff_eq,
    decide_eq_true_eq] at opened
  rw [opened]
  constructor
  · rintro ⟨_, between, _, here, rfl, _⟩
    exact here
  · intro here
    obtain ⟨within, lastWithin⟩ := choice_within symbols here
    exact ⟨within, last, Nat.lt_succ_of_le lastWithin, here, rfl, lastWithin⟩

end Meanings

section Rules

variable {text inner : String} {stack : List Symbol}

theorem spans_iff (reads : read [] text.toList = some stack) (closed : stack.all Symbol.isClosed) (name : String)
    (first last : Nat) : rules.Spans text name first last ↔ choice stack.reverse name.toList first last := by
  constructor
  · rintro ⟨other, readsToo, _, spans⟩
    rw [reads] at readsToo
    cases readsToo
    exact spans
  · exact fun spans => ⟨stack, reads, closed, spans⟩

theorem closed_of_items (stack : List Symbol) (items : stack.all Symbol.isItem) : stack.all Symbol.isClosed := by
  rw [List.all_eq_true] at items ⊢
  intro symbol member
  have isItem := items symbol member
  cases symbol <;> first | rfl | cases isItem

theorem items_of_all (items : stack.all Symbol.isItem) : ∃ meanings : List Meaning, stack = meanings.map .item := by
  induction stack with
  | nil => exact ⟨[], rfl⟩
  | cons symbol stack ih =>
      obtain ⟨isItem, others⟩ := Bool.and_eq_true_iff.mp items
      obtain ⟨meanings, rfl⟩ := ih others
      cases symbol with
      | item meaning => exact ⟨meaning :: meanings, rfl⟩
      | bar | opened | marked | grouped => cases isItem

theorem read_group (reads : read [] inner.toList = some stack) (closed : stack.all Symbol.isClosed) :
    read [] ("(?:" ++ inner ++ ")").toList = some [.item (choice stack.reverse)] := by
  have inside : read ([] ++ [.grouped]) inner.toList = some (stack ++ [.grouped]) :=
    read_framed [] (by simp) _ reads
  have letters : ("(?:" ++ inner ++ ")").toList = '(' :: '?' :: ':' :: (inner.toList ++ [')']) := by
    simp
  have opens : read [] ('(' :: '?' :: ':' :: (inner.toList ++ [')'])) = read [.grouped] (inner.toList ++ [')']) := rfl
  rw [letters, opens, read_append, ← List.nil_append [Symbol.grouped], inside]
  simp only [Option.bind_some, read, step_group closed]

theorem read_started (reads : read [] text.toList = some stack) :
    read [] ("^" ++ text).toList = some (stack ++ [.item start]) := by
  have letters : ("^" ++ text).toList = '^' :: text.toList := by
    simp
  rw [letters]
  exact read_framed [] (by simp) _ reads

theorem read_finished (reads : read [] text.toList = some stack) (closed : stack.all Symbol.isClosed) :
    read [] (text ++ "$").toList = some (.item finish :: stack) := by
  have letters : (text ++ "$").toList = text.toList ++ ['$'] := by
    simp
  have steps : step stack '$' = some (.item finish :: stack) := by
    cases stack with
    | nil => rfl
    | cons symbol stack =>
        cases symbol with
        | item | bar => rfl
        | opened | marked | grouped => cases (Bool.and_eq_true_iff.mp closed).1
  rw [letters, read_append, reads]
  simp only [Option.bind_some, read, steps]

theorem compile_ok_iff (found : Matcher) :
    library.compile text = .ok found ↔ ∃ stack, read [] text.toList = some stack ∧ stack.all Symbol.isClosed ∧
      found = ⟨fun name => (List.range (name.length + 1)).any fun first =>
        (List.range (name.length + 1)).any fun last => choice stack.reverse name.toList first last⟩ := by
  simp only [library]
  cases read [] text.toList with
  | none => simp
  | some stack =>
      cases closed : stack.all Symbol.isClosed with
      | false =>
          simp only [closed, Bool.false_eq_true, if_false, reduceCtorEq, Option.some.injEq, exists_eq_left', false_and]
      | true => simp only [closed, if_true, Option.some.injEq, Except.ok.injEq, exists_eq_left', true_and, eq_comm]

theorem rules_describe : rules.Describe library where
  compiles := by
    intro text
    simp only [compile_ok_iff]
    constructor
    · rintro ⟨_, stack, reads, closed, _⟩
      exact ⟨⟨stack, reads, closed⟩, trivial⟩
    · rintro ⟨⟨stack, reads, closed⟩, _⟩
      exact ⟨_, stack, reads, closed, rfl⟩
  finds := by
    intro text found compiled name
    obtain ⟨stack, reads, closed, rfl⟩ := (compile_ok_iff found).mp compiled
    simp only [spans_iff reads closed, List.any_eq_true, List.mem_range]
    constructor
    · rintro ⟨first, _, last, _, spans⟩
      exact ⟨first, last, spans⟩
    · rintro ⟨first, last, spans⟩
      obtain ⟨firstWithin, lastWithin⟩ := choice_within _ spans
      exact ⟨first, Nat.lt_succ_of_le firstWithin, last, Nat.lt_succ_of_le lastWithin, spans⟩
  item := fun _ ⟨stack, reads, items⟩ => ⟨stack, reads, closed_of_items _ items⟩
  group := fun _ ⟨⟨stack, reads, closed⟩, _⟩ => ⟨_, read_group reads closed, rfl⟩
  group_spans := by
    rintro inner ⟨⟨stack, reads, closed⟩, _⟩ name first last
    rw [spans_iff (read_group reads closed) rfl, spans_iff reads closed]
    exact choice_group _
  start := by
    rintro text ⟨stack, reads, items⟩
    exact ⟨_, read_started reads, by simp [items, Symbol.isItem]⟩
  start_spans := by
    rintro text ⟨stack, reads, items⟩ name first last
    obtain ⟨meanings, rfl⟩ := items_of_all items
    have started := closed_of_items (meanings.map .item ++ [.item start]) (by simp [items, Symbol.isItem])
    rw [spans_iff (read_started reads) started, spans_iff reads (closed_of_items _ items), List.reverse_append,
      ← List.map_reverse, List.reverse_singleton, List.singleton_append, ← List.map_cons, choice_items, choice_items,
      sequence_start]
    exact and_left_comm
  finish := by
    rintro text ⟨stack, reads, items⟩
    exact ⟨_, read_finished reads (closed_of_items _ items), by simp [items, Symbol.isItem]⟩
  finish_spans := by
    rintro text ⟨stack, reads, items⟩ name first last
    obtain ⟨meanings, rfl⟩ := items_of_all items
    have finished := closed_of_items (.item finish :: meanings.map .item) (by simp [items, Symbol.isItem])
    rw [spans_iff (read_finished reads (closed_of_items _ items)) finished, spans_iff reads (closed_of_items _ items),
      ← List.map_cons, ← List.map_reverse, ← List.map_reverse, List.reverse_cons, choice_items, choice_items,
      sequence_finish, String.length_toList]
    exact and_left_comm
  opened := by
    rintro rest ⟨result, reads, closed⟩
    have letters : ("^(?:" ++ rest).toList = '^' :: '(' :: '?' :: ':' :: rest.toList := by
      simp
    rw [letters] at reads
    obtain ⟨inner, behind, out, same, inside, isClosed⟩ :=
      read_grouped [] [.item start] rest.toList result reads closed
    refine ⟨String.ofList inner, String.ofList behind, ?_, ⟨out, by simpa using inside, isClosed⟩, ?_⟩
    · rw [← String.toList_inj, same]
      simp
    · rintro ⟨other, readsToo, _⟩
      simp [read_append, inside, read, step_of_closed isClosed] at readsToo
  unopened := by
    rintro inner behind ⟨⟨stack, reads, closed⟩, _⟩ ⟨other, readsToo, _⟩
    simp [read_append, reads, read, step_of_closed closed] at readsToo

end Rules

end PlainExpression

end BytecodeParity
