import NullReturns.Finding

/-! # One report for each watch

A watch is asked about one return statement after the other, of whatever tables and bodies. Until there is a
report it answers as a new watch would, and afterwards it reports nothing. So it does not matter whether the
return statements of a body are looked at up to the first report or to the end.
-/

namespace NullReturns.Watch

/-- A return statement that a watch is asked about. -/
structure Query where
  table : Table
  body : Body
  statement : NodeId

def ask (watch : Watch) (query : Query) : Option Report × Watch :=
  watch.step query.table query.body query.statement

/-- What a new watch answers. -/
def Query.alone? (query : Query) : Option Report := (({ } : Watch).ask query).1

/-- The watch after some queries. -/
def after (watch : Watch) : List Query → Watch
  | [] => watch
  | query :: rest => (watch.ask query).2.after rest

/-- The answers to some queries, one for each. -/
def answers (watch : Watch) : List Query → List (Option Report)
  | [] => []
  | query :: rest => (watch.ask query).1 :: (watch.ask query).2.answers rest

/-- The first report among the answers. Nothing is asked behind it. -/
def firstReport? (watch : Watch) : List Query → Option Report
  | [] => none
  | query :: rest =>
    match watch.ask query with
    | (some report, _) => some report
    | (none, next) => next.firstReport? rest

/-- The return statements of a body, in document order. -/
def queriesOf (table : Table) (body : Body) : List Query :=
  body.returns.map fun statement => ⟨table, body, statement⟩

/-! ## One query -/

private theorem alone?_eq (query : Query) :
    query.alone? = Report.ofStatement? query.table query.body query.statement := by
  simp only [Query.alone?, ask, step, Bool.false_eq_true, if_false]
  cases Report.ofStatement? query.table query.body query.statement <;> rfl

/-- A new watch has reported as soon as it answers with a report. -/
theorem ask_new (query : Query) : ({ } : Watch).ask query = (query.alone?, ⟨query.alone?.isSome⟩) := by
  rw [alone?_eq, ask, step, if_neg Bool.false_ne_true]
  cases Report.ofStatement? query.table query.body query.statement <;> rfl

private theorem ask_reported (query : Query) : (⟨true⟩ : Watch).ask query = (none, ⟨true⟩) := rfl

/-- After a query a watch has reported if it had before or has done so now. -/
theorem ask_snd (watch : Watch) (query : Query) :
    (watch.ask query).2 = ⟨watch.hasReported || (watch.ask query).1.isSome⟩ := by
  rcases watch with ⟨_ | _⟩
  · rw [ask_new]
    rfl
  · rfl

/-! ## Queries one after the other -/

private theorem length_answers (watch : Watch) (queries : List Query) :
    (watch.answers queries).length = queries.length := by
  induction queries generalizing watch with
  | nil => rfl
  | cons query rest ih => rw [answers, List.length_cons, List.length_cons, ih]

private theorem after_append (watch : Watch) (first second : List Query) :
    watch.after (first ++ second) = (watch.after first).after second := by
  induction first generalizing watch with
  | nil => rfl
  | cons query first ih => exact ih _

/-- A query is answered as by the watch that the queries before it have left. -/
theorem getElem?_answers (watch : Watch) (queries : List Query) (index : Nat) :
    (watch.answers queries)[index]? =
      queries[index]?.map fun query => ((watch.after (queries.take index)).ask query).1 := by
  induction queries generalizing watch index with
  | nil => rfl
  | cons query rest ih =>
    cases index with
    | zero => rfl
    | succ index =>
      rw [answers, List.getElem?_cons_succ, ih, List.getElem?_cons_succ, List.take_succ_cons, after]

/-- At whatever place a query has no report, it leaves the watch as it was. -/
theorem after_take_succ {watch : Watch} {queries : List Query} {index : Nat}
    (silent : (watch.answers queries)[index]? = some none) :
    watch.after (queries.take (index + 1)) = watch.after (queries.take index) := by
  rw [getElem?_answers, Option.map_eq_some_iff] at silent
  obtain ⟨query, found, silent⟩ := silent
  rw [List.take_add_one, found, Option.toList_some, after_append, after, after, ask_snd, silent, Option.isSome_none,
    Bool.or_false]

private theorem after_reported (queries : List Query) : (⟨true⟩ : Watch).after queries = ⟨true⟩ := by
  induction queries with
  | nil => rfl
  | cons query rest ih => exact ih

/-- A watch has reported exactly when one of the queries is one that a new watch reports. -/
theorem after_new (queries : List Query) :
    ({ } : Watch).after queries = ⟨queries.any (·.alone?.isSome)⟩ := by
  induction queries with
  | nil => rfl
  | cons query rest ih =>
    rw [after, ask_new, List.any_cons]
    cases query.alone? with
    | none => exact ih
    | some report => exact after_reported rest

/-- A query is reported exactly when a new watch reports it and none of the queries before it. -/
theorem answer_eq_some_iff {queries : List Query} {index : Nat} {report : Report} :
    (({ } : Watch).answers queries)[index]? = some (some report) ↔
      (∃ query, queries[index]? = some query ∧ query.alone? = some report) ∧
        ∀ earlier ∈ queries.take index, earlier.alone? = none := by
  rw [getElem?_answers, after_new, Option.map_eq_some_iff]
  cases reported : (queries.take index).any (·.alone?.isSome) with
  | true =>
    -- The watch has reported before, so that neither side holds.
    obtain ⟨earlier, member, found⟩ := List.any_eq_true.mp reported
    constructor
    · rintro ⟨query, _, answered⟩
      rw [ask_reported] at answered
      contradiction
    · rintro ⟨_, silent⟩
      rw [silent earlier member] at found
      contradiction
  | false =>
    have silent : ∀ earlier ∈ queries.take index, earlier.alone? = none := by
      simpa only [List.any_eq_false, Option.not_isSome_iff_eq_none] using reported
    exact ⟨fun answered => ⟨answered, silent⟩, And.left⟩

/-- No second query is reported: a new watch would have reported the first one. -/
theorem answer_unique {queries : List Query} {first second : Nat} {report report' : Report}
    (reported : (({ } : Watch).answers queries)[first]? = some (some report))
    (reported' : (({ } : Watch).answers queries)[second]? = some (some report')) : first = second := by
  have notBefore {index later : Nat} {report report' : Report}
      (reported : (({ } : Watch).answers queries)[index]? = some (some report))
      (reported' : (({ } : Watch).answers queries)[later]? = some (some report')) : ¬ index < later := by
    intro before
    obtain ⟨⟨query, found, alone⟩, _⟩ := answer_eq_some_iff.mp reported
    have early : query ∈ queries.take later :=
      List.mem_of_getElem? ((List.getElem?_take_of_lt before).trans found)
    rw [(answer_eq_some_iff.mp reported').2 query early] at alone
    contradiction
  have := notBefore reported reported'
  have := notBefore reported' reported
  omega

/-! ## Stopping at the first report -/

private theorem filterMap_answers_reported (queries : List Query) :
    ((⟨true⟩ : Watch).answers queries).filterMap id = [] := by
  induction queries with
  | nil => rfl
  | cons query rest ih => exact ih

/-- The answers to all queries hold the report at which one could have stopped, and no other. -/
theorem filterMap_answers (watch : Watch) (queries : List Query) :
    (watch.answers queries).filterMap id = (watch.firstReport? queries).toList := by
  induction queries generalizing watch with
  | nil => rfl
  | cons query rest ih =>
    rw [answers, firstReport?, List.filterMap_cons]
    cases asked : watch.ask query with
    | mk answer next =>
      cases answer with
      | none => exact ih next
      | some report =>
        have latched := ask_snd watch query
        rw [asked, Option.isSome_some, Bool.or_true] at latched
        rw [latched, filterMap_answers_reported]
        rfl

private theorem firstReport?_new (queries : List Query) :
    ({ } : Watch).firstReport? queries = queries.findSome? (·.alone?) := by
  induction queries with
  | nil => rfl
  | cons query rest ih =>
    rw [firstReport?, ask_new, List.findSome?_cons]
    cases query.alone? with
    | none => exact ih
    | some report => rfl

/-- A new watch that looks at the return statements of a body until there is a report finds the report of
the body. -/
theorem firstReport?_queriesOf (table : Table) (body : Body) :
    ({ } : Watch).firstReport? (queriesOf table body) = Report.ofBody? table body := by
  rw [firstReport?_new, queriesOf, List.findSome?_map, Report.ofBody?]
  congr 1
  funext statement
  exact alone?_eq ⟨table, body, statement⟩

/-- Whatever a new watch is asked, it reports at most one query: the first one that a new watch would report,
and with the same report. Queries that it does not report leave it as it was. Asked about all return
statements of a body, it gives the report of the body, which is the one it gives when nothing is asked
behind the first report. -/
theorem answers_report_first (queries : List Query) :
    (({ } : Watch).answers queries).length = queries.length ∧
    (∀ (first second : Nat) (report report' : Report),
      (({ } : Watch).answers queries)[first]? = some (some report) →
      (({ } : Watch).answers queries)[second]? = some (some report') → first = second) ∧
    (∀ (index : Nat) (report : Report), (({ } : Watch).answers queries)[index]? = some (some report) ↔
      (∃ query, queries[index]? = some query ∧ query.alone? = some report) ∧
        ∀ earlier ∈ queries.take index, earlier.alone? = none) ∧
    (∀ index : Nat, (({ } : Watch).answers queries)[index]? = some none →
      ({ } : Watch).after (queries.take (index + 1)) = ({ } : Watch).after (queries.take index)) ∧
    ∀ table body,
      ({ } : Watch).firstReport? (queriesOf table body) = Report.ofBody? table body ∧
      (({ } : Watch).answers (queriesOf table body)).filterMap id = (Report.ofBody? table body).toList := by
  refine ⟨length_answers { } queries, ?_, ?_, ?_, ?_⟩
  · intro first second report report' reported reported'
    exact answer_unique reported reported'
  · intro index report
    exact answer_eq_some_iff
  · intro index silent
    exact after_take_succ silent
  · intro table body
    have stopped := firstReport?_queriesOf table body
    exact ⟨stopped, by rw [filterMap_answers, stopped]⟩

end NullReturns.Watch
