import FaAuthM8.Scripts.SuperuserGuard

/-!
# What the guard reports

The visitor reports the reads it comes across one after the other, whatever position it finds them in. So
what it reports is the list of the reads that sit in a decision, without those that are arguments of an
allowed predicate, each once.
-/

namespace FaAuthM8.SuperuserGuard

open Node DecisionVisitor

/-- The read sits in a decision: in a test or a condition of a comprehension at any depth, or itself an
operand of a boolean operation or of a negation. -/
inductive Decides (tree read : Node) : Prop
  | test {kind : Branch} {test : Node} {rest : List Node}
      (hbranch : Walk.Within children tree (.branch kind test rest)) (hread : Walk.Within children test read)
  | condition {target iter cond : Node} {ifs : List Node}
      (hcomprehension : Walk.Within children tree (.comprehension target iter ifs)) (hcond : cond ∈ ifs)
      (hread : Walk.Within children cond read)
  | operand {values : List Node} (hboolOp : Walk.Within children tree (.boolOp values)) (hread : read ∈ values)
  | negated (hnot : Walk.Within children tree (.unaryOp .not read))

/-- The read is an argument of an allowed predicate. -/
inductive Exempt (tree read : Node) : Prop
  | argument {func : Node} {args keywords : List Node}
      (hcall : Walk.Within children tree (.call func args keywords))
      (hallowed : func.calledName ∈ ALLOWED_PREDICATES) (hread : read ∈ args ++ keywords)

/-- Different reads of the tree have different identities. -/
def DistinctReads (tree : Node) : Prop :=
  ∀ x y, Walk.Within children tree x → Walk.Within children tree y → x.isFlagRead = true →
    x.identity = y.identity → x = y

namespace Node

mutual

/-- The reads that the visitor looks at, in its order. -/
def decisions : Node → List Node
  | name _ => []
  | attributeNode _ _ _ value _ _ => value.decisions
  | call func args keywords => func.decisions ++ (decisionsAll args ++ decisionsAll keywords)
  | branch _ test rest => test.walk.filter isFlagRead ++ (test.decisions ++ decisionsAll rest)
  | boolOp values => values.filter isFlagRead ++ decisionsAll values
  | unaryOp op operand => (if op = .not then [operand].filter isFlagRead else []) ++ operand.decisions
  | comprehension target iter ifs =>
      ifs.flatMap (fun cond => cond.walk.filter isFlagRead) ++
        (target.decisions ++ (iter.decisions ++ decisionsAll ifs))
  | other fields => decisionsAll fields

def decisionsAll : List Node → List Node
  | [] => []
  | node :: rest => node.decisions ++ decisionsAll rest

end

theorem sizes_eq (nodes : List Node) : sizes nodes = (nodes.map size).sum := by
  induction nodes with
  | nil => rfl
  | cons node rest ih => rw [sizes, ih, List.map_cons, List.sum_cons]

theorem size_eq (node : Node) : node.size = (node.children.map size).sum + 1 := by
  cases node with
  | name => rfl
  | _ => simp [size, children, sizes_eq]

theorem mem_walk {node read : Node} : read ∈ node.walk ↔ Walk.Within children node read := by
  have hfuel : ([node].map size).sum ≤ node.size := by simp
  rw [walk, Walk.mem_walkFrom size_eq hfuel]
  simp

theorem decisionsAll_eq (nodes : List Node) : decisionsAll nodes = nodes.flatMap decisions := by
  induction nodes with
  | nil => rfl
  | cons node rest ih => rw [decisionsAll, ih, List.flatMap_cons]

end Node

/-! ### The visitor reports the decisions -/

section

variable {v : DecisionVisitor} {node : Node}

@[simp] theorem report_allowedNodes (v : DecisionVisitor) (node : Node) :
    (v.report node).allowedNodes = v.allowedNodes := by
  rw [report]
  split
  · rfl
  · rfl

theorem foldl_report_allowedNodes (v : DecisionVisitor) (reads : List Node) :
    (reads.foldl report v).allowedNodes = v.allowedNodes := by
  induction reads generalizing v with
  | nil => rfl
  | cons read rest ih => rw [List.foldl_cons, ih, report_allowedNodes]

theorem foldl_reportRead (v : DecisionVisitor) (nodes : List Node) :
    nodes.foldl reportRead v = (nodes.filter isFlagRead).foldl report v := by
  induction nodes generalizing v with
  | nil => rfl
  | cons node rest ih =>
      rw [List.foldl_cons, ih, List.filter_cons, reportRead]
      split
      · rfl
      · rfl

theorem scanBoolean_eq (v : DecisionVisitor) (expr : Node) :
    v.scanBoolean expr = (expr.walk.filter isFlagRead).foldl report v :=
  foldl_reportRead v expr.walk

theorem foldl_scanBoolean (v : DecisionVisitor) (conditions : List Node) :
    conditions.foldl scanBoolean v =
      (conditions.flatMap fun cond => cond.walk.filter isFlagRead).foldl report v := by
  induction conditions generalizing v with
  | nil => rfl
  | cons cond rest ih => rw [List.foldl_cons, ih, scanBoolean_eq, List.flatMap_cons, List.foldl_append]

/-- The exemptions of every call in the tree have been recorded. -/
def Recorded (allowed : List (Option Nat)) (tree : Node) : Prop :=
  ∀ read, read.isFlagRead = true → Exempt tree read → read.identity ∈ allowed

theorem Exempt.child {tree child read : Node} (hchild : child ∈ tree.children) (hexempt : Exempt child read) :
    Exempt tree read := by
  obtain ⟨hcall, hallowed, hread⟩ := hexempt
  exact .argument (hcall.child hchild) hallowed hread

theorem Recorded.child {allowed : List (Option Nat)} {tree child : Node} (hrecorded : Recorded allowed tree)
    (hchild : child ∈ tree.children) : Recorded allowed child :=
  fun read hread hexempt => hrecorded read hread (hexempt.child hchild)

theorem allowArgs_eq_self {allowed : List (Option Nat)} {args : List Node}
    (hargs : ∀ arg ∈ args, arg.isFlagRead = true → arg.identity ∈ allowed) :
    allowArgs allowed args = allowed := by
  induction args with
  | nil => rfl
  | cons arg rest ih =>
      have hrest := ih fun arg' hmem => hargs arg' (List.mem_cons_of_mem _ hmem)
      rw [allowArgs, List.foldl_cons]
      split
      · next hread =>
          rw [List.insert_of_mem (hargs arg List.mem_cons_self hread)]
          exact hrest
      · exact hrest

theorem recordAllowedArgs_eq_self {func : Node} {args keywords : List Node}
    (hrecorded : Recorded v.allowedNodes (.call func args keywords)) :
    v.recordAllowedArgs func args keywords = v := by
  rw [recordAllowedArgs]
  split
  · next hallowed =>
      rw [allowArgs_eq_self fun arg harg hread =>
        hrecorded arg hread (.argument (Walk.Within.refl _) hallowed harg)]
  · rfl

theorem Recorded.after {tree : Node} (hrecorded : Recorded v.allowedNodes tree) (reads : List Node) :
    Recorded (reads.foldl report v).allowedNodes tree := by
  rw [foldl_report_allowedNodes]
  exact hrecorded

mutual

theorem visit_eq : ∀ (node : Node) (v : DecisionVisitor), Recorded v.allowedNodes node →
    v.visit node = node.decisions.foldl report v
  | .name _, v, _ => rfl
  | .attributeNode _ _ _ value _ _, v, hrecorded =>
      visit_eq value v (hrecorded.child List.mem_cons_self)
  | .call func args keywords, v, hrecorded => by
      have hfunc : Recorded v.allowedNodes func := hrecorded.child List.mem_cons_self
      have hargs : ∀ arg ∈ args, Recorded (func.decisions.foldl report v).allowedNodes arg := fun arg harg =>
        Recorded.after (hrecorded.child (List.mem_cons_of_mem _ (List.mem_append_left _ harg))) _
      have hkeywords : ∀ arg ∈ keywords,
          Recorded ((decisionsAll args).foldl report (func.decisions.foldl report v)).allowedNodes arg :=
        fun arg harg => Recorded.after (Recorded.after
          (hrecorded.child (List.mem_cons_of_mem _ (List.mem_append_right _ harg))) _) _
      rw [visit, recordAllowedArgs_eq_self hrecorded, visit_eq func v hfunc, visitAll_eq args _ hargs,
        visitAll_eq keywords _ hkeywords, decisions, List.foldl_append, List.foldl_append]
  | .branch kind test rest, v, hrecorded => by
      have htest : Recorded ((test.walk.filter isFlagRead).foldl report v).allowedNodes test :=
        Recorded.after (hrecorded.child List.mem_cons_self) _
      have hrest : ∀ node ∈ rest, Recorded (test.decisions.foldl report
          ((test.walk.filter isFlagRead).foldl report v)).allowedNodes node := fun node hnode =>
        Recorded.after (Recorded.after (hrecorded.child (List.mem_cons_of_mem _ hnode)) _) _
      rw [visit, scanBoolean_eq, visit_eq test _ htest, visitAll_eq rest _ hrest, decisions,
        List.foldl_append, List.foldl_append]
  | .boolOp values, v, hrecorded => by
      have hvalues : ∀ node ∈ values,
          Recorded ((values.filter isFlagRead).foldl report v).allowedNodes node := fun node hnode =>
        Recorded.after (hrecorded.child hnode) _
      rw [visit, foldl_reportRead, visitAll_eq values _ hvalues, decisions, List.foldl_append]
  | .unaryOp op operand, v, hrecorded => by
      have hoperand : Recorded v.allowedNodes operand := hrecorded.child List.mem_cons_self
      rw [visit, decisions, List.foldl_append]
      split
      · have hread : v.reportRead operand = ([operand].filter isFlagRead).foldl report v :=
          foldl_reportRead v [operand]
        rw [hread, visit_eq operand _ (hoperand.after _)]
      · exact visit_eq operand v hoperand
  | .comprehension target iter ifs, v, hrecorded => by
      let scanned := (ifs.flatMap fun cond => cond.walk.filter isFlagRead).foldl report v
      have htarget : Recorded scanned.allowedNodes target :=
        Recorded.after (hrecorded.child List.mem_cons_self) _
      have hiter : Recorded (target.decisions.foldl report scanned).allowedNodes iter :=
        Recorded.after (Recorded.after (hrecorded.child (List.mem_cons_of_mem _ List.mem_cons_self)) _) _
      have hifs : ∀ cond ∈ ifs, Recorded
          (iter.decisions.foldl report (target.decisions.foldl report scanned)).allowedNodes cond :=
        fun cond hcond => Recorded.after (Recorded.after (Recorded.after
          (hrecorded.child (List.mem_cons_of_mem _ (List.mem_cons_of_mem _ hcond))) _) _) _
      rw [visit, foldl_scanBoolean, visit_eq target _ htarget, visit_eq iter _ hiter,
        visitAll_eq ifs _ hifs, decisions, List.foldl_append, List.foldl_append, List.foldl_append]
  | .other fields, v, hrecorded => visitAll_eq fields v fun _ hnode => hrecorded.child hnode

theorem visitAll_eq : ∀ (nodes : List Node) (v : DecisionVisitor),
    (∀ node ∈ nodes, Recorded v.allowedNodes node) →
    v.visitAll nodes = (decisionsAll nodes).foldl report v
  | [], v, _ => rfl
  | node :: rest, v, hrecorded => by
      have hrest : ∀ node' ∈ rest, Recorded (node.decisions.foldl report v).allowedNodes node' := by
        rw [foldl_report_allowedNodes]
        exact fun node' hmem => hrecorded node' (List.mem_cons_of_mem _ hmem)
      rw [visitAll, visit_eq node v (hrecorded node List.mem_cons_self), visitAll_eq rest _ hrest,
        decisionsAll, List.foldl_append]

end

/-! ### The decisions are the reads in decision positions -/

theorem Decides.child {tree child read : Node} (hchild : child ∈ tree.children) (hdecides : Decides child read) :
    Decides tree read := by
  cases hdecides with
  | test hbranch hread => exact .test (hbranch.child hchild) hread
  | condition hcomprehension hcond hread => exact .condition (hcomprehension.child hchild) hcond hread
  | operand hboolOp hread => exact .operand (hboolOp.child hchild) hread
  | negated hnot => exact .negated (hnot.child hchild)

inductive DecidesHere (read : Node) : Node → Prop
  | test {kind : Branch} {test : Node} {rest : List Node} (hread : Walk.Within children test read) :
      DecidesHere read (.branch kind test rest)
  | condition {target iter cond : Node} {ifs : List Node} (hcond : cond ∈ ifs)
      (hread : Walk.Within children cond read) : DecidesHere read (.comprehension target iter ifs)
  | operand {values : List Node} (hread : read ∈ values) : DecidesHere read (.boolOp values)
  | negated : DecidesHere read (.unaryOp .not read)

/-- A read sits in a decision of the node itself, or in one of a child. -/
theorem decides_iff {tree read : Node} :
    Decides tree read ↔ DecidesHere read tree ∨ ∃ child ∈ tree.children, Decides child read := by
  constructor
  · intro hdecides
    cases hdecides with
    | test hbranch hread =>
        rcases Walk.within_iff.1 hbranch with rfl | ⟨child, hchild, hbelow⟩
        · exact .inl (.test hread)
        · exact .inr ⟨child, hchild, .test hbelow hread⟩
    | condition hcomprehension hcond hread =>
        rcases Walk.within_iff.1 hcomprehension with rfl | ⟨child, hchild, hbelow⟩
        · exact .inl (.condition hcond hread)
        · exact .inr ⟨child, hchild, .condition hbelow hcond hread⟩
    | operand hboolOp hread =>
        rcases Walk.within_iff.1 hboolOp with rfl | ⟨child, hchild, hbelow⟩
        · exact .inl (.operand hread)
        · exact .inr ⟨child, hchild, .operand hbelow hread⟩
    | negated hnot =>
        rcases Walk.within_iff.1 hnot with rfl | ⟨child, hchild, hbelow⟩
        · exact .inl .negated
        · exact .inr ⟨child, hchild, .negated hbelow⟩
  · rintro (hhere | ⟨child, hchild, hbelow⟩)
    · cases hhere with
      | test hread => exact .test (.refl _) hread
      | condition hcond hread => exact .condition (.refl _) hcond hread
      | operand hread => exact .operand (.refl _) hread
      | negated => exact .negated (.refl _)
    · exact hbelow.child hchild

/-- The reads of a node's own decisions. -/
def readsHere : Node → List Node
  | .branch _ test _ => test.walk.filter isFlagRead
  | .boolOp values => values.filter isFlagRead
  | .unaryOp op operand => if op = .not then [operand].filter isFlagRead else []
  | .comprehension _ _ ifs => ifs.flatMap fun cond => cond.walk.filter isFlagRead
  | _ => []

theorem mem_readsHere {read : Node} : read ∈ readsHere node ↔ read.isFlagRead = true ∧ DecidesHere read node := by
  cases node with
  | branch kind test rest =>
      rw [readsHere, List.mem_filter, mem_walk, and_comm]
      refine and_congr_right fun _ => ⟨.test, fun hhere => ?_⟩
      cases hhere with
      | test hread => exact hread
  | boolOp values =>
      rw [readsHere, List.mem_filter, and_comm]
      refine and_congr_right fun _ => ⟨.operand, fun hhere => ?_⟩
      cases hhere with
      | operand hread => exact hread
  | unaryOp op operand =>
      rw [readsHere]
      split
      · next hop =>
          subst hop
          rw [List.mem_filter, List.mem_singleton, and_comm]
          refine and_congr_right fun _ => ⟨?_, ?_⟩
          · rintro rfl
            exact .negated
          · rintro ⟨⟩
            rfl
      · next hop =>
          refine ⟨fun hmem => absurd hmem List.not_mem_nil, ?_⟩
          rintro ⟨-, ⟨⟩⟩
          exact absurd rfl hop
  | comprehension target iter ifs =>
      rw [readsHere, List.mem_flatMap]
      constructor
      · rintro ⟨cond, hcond, hmem⟩
        obtain ⟨hwalk, hflag⟩ := List.mem_filter.1 hmem
        exact ⟨hflag, .condition hcond (mem_walk.1 hwalk)⟩
      · intro ⟨hflag, hhere⟩
        cases hhere with
        | condition hcond hread => exact ⟨_, hcond, List.mem_filter.2 ⟨mem_walk.2 hread, hflag⟩⟩
  | name | attributeNode | call | other =>
      refine ⟨fun hmem => absurd hmem List.not_mem_nil, ?_⟩
      rintro ⟨-, ⟨⟩⟩

theorem decisions_eq (node : Node) :
    node.decisions = readsHere node ++ node.children.flatMap decisions := by
  cases node with
  | name => rfl
  | _ => simp [decisions, readsHere, children, decisionsAll_eq]

theorem mem_decisions {tree read : Node} :
    read ∈ tree.decisions ↔ read.isFlagRead = true ∧ Decides tree read := by
  induction tree using Walk.induct size_eq with
  | hstep tree ih =>
      rw [decisions_eq, List.mem_append, mem_readsHere, List.mem_flatMap, decides_iff, and_or_left]
      refine or_congr_right ⟨?_, ?_⟩
      · rintro ⟨child, hmem, hread⟩
        obtain ⟨hflag, hdecides⟩ := (ih child hmem).1 hread
        exact ⟨hflag, child, hmem, hdecides⟩
      · rintro ⟨hflag, child, hmem, hdecides⟩
        exact ⟨child, hmem, (ih child hmem).2 ⟨hflag, hdecides⟩⟩

/-! ### The exemptions -/

theorem mem_allowArgs {allowed : List (Option Nat)} {args : List Node} {identity : Option Nat} :
    identity ∈ allowArgs allowed args ↔
      identity ∈ allowed ∨ ∃ arg ∈ args, arg.isFlagRead = true ∧ arg.identity = identity := by
  induction args generalizing allowed with
  | nil => simp [allowArgs]
  | cons arg rest ih =>
      have hcons : allowArgs allowed (arg :: rest) =
          allowArgs (if arg.isFlagRead then allowed.insert arg.identity else allowed) rest := rfl
      rw [hcons, ih, List.exists_mem_cons_iff, ← or_assoc]
      refine or_congr_left ?_
      split
      · next hread => rw [List.mem_insert_iff, or_comm, eq_comm (a := identity), and_iff_right hread]
      · next hread => simp [hread]

theorem mem_recordCalls {calls : List Node} {identity : Option Nat} :
    identity ∈ (calls.foldl recordCall v).allowedNodes ↔ identity ∈ v.allowedNodes ∨
      ∃ func args keywords, .call func args keywords ∈ calls ∧ func.calledName ∈ ALLOWED_PREDICATES ∧
        ∃ arg ∈ args ++ keywords, arg.isFlagRead = true ∧ arg.identity = identity := by
  induction calls generalizing v with
  | nil => simp
  | cons call rest ih =>
      rw [List.foldl_cons, ih]
      cases call with
      | call func args keywords =>
          rw [recordCall, recordAllowedArgs]
          split
          · next hallowed =>
              rw [mem_allowArgs]
              constructor
              · rintro ((hold | hargs) | ⟨func', args', keywords', hmem, hrest⟩)
                · exact .inl hold
                · exact .inr ⟨func, args, keywords, List.mem_cons_self, hallowed, hargs⟩
                · exact .inr ⟨func', args', keywords', List.mem_cons_of_mem _ hmem, hrest⟩
              · rintro (hold | ⟨func', args', keywords', hmem, hname, hargs⟩)
                · exact .inl (.inl hold)
                · rcases List.mem_cons.1 hmem with heq | hmem
                  · cases heq
                    exact .inl (.inr hargs)
                  · exact .inr ⟨func', args', keywords', hmem, hname, hargs⟩
          · next hallowed =>
              refine or_congr_right ⟨?_, ?_⟩
              · rintro ⟨func', args', keywords', hmem, hrest⟩
                exact ⟨func', args', keywords', List.mem_cons_of_mem _ hmem, hrest⟩
              · rintro ⟨func', args', keywords', hmem, hname, hargs⟩
                rcases List.mem_cons.1 hmem with heq | hmem
                · cases heq
                  exact absurd hname hallowed
                · exact ⟨func', args', keywords', hmem, hname, hargs⟩
      | _ => simp [recordCall]

/-! ### The report -/

/-- A visitor that has reported the reads `found`. -/
def reporting (filename : String) (lines : List String) (allowed : List (Option Nat)) (found : List Node) :
    DecisionVisitor where
  filename := filename
  lines := lines
  violations := found.map (violation filename lines)
  allowedNodes := allowed
  reported := found.map identity

theorem foldl_report_reporting (filename : String) (lines : List String) (allowed : List (Option Nat))
    (found reads : List Node) :
    reads.foldl report (reporting filename lines allowed found) =
      reporting filename lines allowed (Walk.reportOnce identity allowed found reads) := by
  induction reads generalizing found with
  | nil => rfl
  | cons read rest ih =>
      rw [List.foldl_cons, Walk.reportOnce_cons]
      by_cases hskip : read.identity ∈ allowed ∨ read.identity ∈ found.map identity
      · have hreport : (reporting filename lines allowed found).report read =
            reporting filename lines allowed found := if_pos hskip
        rw [hreport, if_pos hskip, ih]
      · have hreport : (reporting filename lines allowed found).report read =
            reporting filename lines allowed (found ++ [read]) := by
          refine (if_neg hskip).trans ?_
          simp [reporting]
        rw [hreport, if_neg hskip, ih]

/-- The pass over the calls records the exemptions, and nothing else. -/
theorem recordCalls_eq (calls : List Node) :
    calls.foldl recordCall v = { v with allowedNodes := (calls.foldl recordCall v).allowedNodes } := by
  induction calls generalizing v with
  | nil => rfl
  | cons call rest ih =>
      rw [List.foldl_cons, ih]
      cases call with
      | call func args keywords =>
          rw [recordCall, recordAllowedArgs]
          split
          · rfl
          · rfl
      | _ => rfl

/-- The violations are the places of the reads that sit in a decision and are not exempt, each once. -/
theorem findViolations_exact (filename : String) (lines : List String) {tree : Node}
    (hdistinct : DistinctReads tree) :
    ∃ reads : List Node, findViolations filename lines tree = reads.map (violation filename lines) ∧
      reads.Nodup ∧
      ∀ read, read ∈ reads ↔ read.isFlagRead = true ∧ Decides tree read ∧ ¬ Exempt tree read := by
  let allowed := (tree.walk.foldl recordCall { filename, lines }).allowedNodes
  have hallowed {identity : Option Nat} : identity ∈ allowed ↔
      ∃ func args keywords, Walk.Within children tree (.call func args keywords) ∧
        func.calledName ∈ ALLOWED_PREDICATES ∧
        ∃ arg ∈ args ++ keywords, arg.isFlagRead = true ∧ arg.identity = identity := by
    rw [mem_recordCalls]
    simp only [mem_walk, List.not_mem_nil, false_or]
  have hrecorded : Recorded allowed tree := by
    intro read hflag ⟨hcall, hname, hread⟩
    exact hallowed.2 ⟨_, _, _, hcall, hname, read, hread, hflag, rfl⟩
  have hstart : tree.walk.foldl recordCall { filename, lines } = reporting filename lines allowed [] :=
    recordCalls_eq tree.walk
  have hwithin {read : Node} (hdecides : Decides tree read) : Walk.Within children tree read := by
    cases hdecides with
    | test hbranch hread => exact hbranch.trans (hread.child List.mem_cons_self)
    | condition hcomprehension hcond hread =>
        exact hcomprehension.trans (hread.child (List.mem_cons_of_mem _ (List.mem_cons_of_mem _ hcond)))
    | operand hboolOp hread => exact hboolOp.trans ((Walk.Within.refl _).child hread)
    | negated hnot => exact hnot.trans ((Walk.Within.refl _).child List.mem_cons_self)
  have hkey : ∀ x ∈ [] ++ tree.decisions, ∀ y ∈ [] ++ tree.decisions, x.identity = y.identity → x = y := by
    intro x hx y hy
    obtain ⟨hflag, hdecides⟩ := mem_decisions.1 hx
    exact hdistinct x y (hwithin hdecides) (hwithin (mem_decisions.1 hy).2) hflag
  have hspec : (Walk.reportOnce identity allowed [] tree.decisions).Nodup ∧ _ :=
    Walk.reportOnce_spec hkey List.nodup_nil
  obtain ⟨hnodup, hmem⟩ := hspec
  refine ⟨Walk.reportOnce identity allowed [] tree.decisions, ?_, hnodup, fun read => ?_⟩
  · rw [findViolations, hstart, visit_eq tree (reporting filename lines allowed []) hrecorded,
      foldl_report_reporting]
    rfl
  · rw [hmem, mem_decisions, and_assoc]
    simp only [List.not_mem_nil, false_or]
    refine and_congr_right fun hflag => and_congr_right fun hdecides => not_congr ⟨fun hexempt => ?_, ?_⟩
    · obtain ⟨func, args, keywords, hcall, hname, arg, harg, hargFlag, heq⟩ := hallowed.1 hexempt
      have hinside : arg ∈ (Node.call func args keywords).children := List.mem_cons_of_mem _ harg
      have hsame : arg = read :=
        hdistinct arg read (hcall.trans ((Walk.Within.refl _).child hinside)) (hwithin hdecides) hargFlag heq
      exact .argument hcall hname (hsame ▸ harg)
    · exact hrecorded read hflag

theorem DistinctReads.of_nodup {tree : Node}
    (hnodup : ((tree.walk.filter fun node => node.identity.isSome).map identity).Nodup) : DistinctReads tree := by
  intro x y hx hy hflag heq
  have hsome : x.identity.isSome = true := by
    cases x with
    | attributeNode => rfl
    | _ => cases hflag
  have hmem {z : Node} (hz : Walk.Within children tree z) (hsome : z.identity.isSome = true) :
      z ∈ tree.walk.filter fun node => node.identity.isSome :=
    List.mem_filter.2 ⟨mem_walk.2 hz, hsome⟩
  exact List.inj_on_of_nodup_map hnodup (hmem hx hsome) (hmem hy (heq ▸ hsome)) heq

end

/-- `if u.is_superuser and has_superuser_privileges(u.role, u.is_superuser): pass` -/
def halfGuarded : Node :=
  .other [.branch .ifStmt (.boolOp [.attributeNode 0 1 5 (.name "u") "is_superuser" .load,
    .call (.name "has_superuser_privileges") [.attributeNode 1 1 53 (.name "u") "role" .load,
      .attributeNode 2 1 61 (.name "u") "is_superuser" .load] []]) [.other []]]

theorem findViolations_exact_halfGuarded :
    findViolations "deps.py" ["  if u.is_superuser and f():"] halfGuarded =
        [⟨"deps.py", 1, 5, "if u.is_superuser and f():"⟩] ∧
      ∃ reads : List Node, findViolations "deps.py" ["  if u.is_superuser and f():"] halfGuarded =
          reads.map (violation "deps.py" ["  if u.is_superuser and f():"]) ∧ reads.Nodup ∧
        ∀ read, read ∈ reads ↔
          read.isFlagRead = true ∧ Decides halfGuarded read ∧ ¬ Exempt halfGuarded read := by
  have hdistinct : DistinctReads halfGuarded := .of_nodup (by decide +kernel)
  exact ⟨by decide +kernel, findViolations_exact "deps.py" _ hdistinct⟩

end FaAuthM8.SuperuserGuard
