import Stepper.Proofs.Arithmetic
import Stepper.Proofs.Safety
import Stepper.Proofs.Views

/-!
The views of an expression step by step. They begin with its text, each next one
shows one level of parentheses less, and the last is its value.
-/

namespace Stepper

open Token (IsRun)

/-! ### Levels and depths -/

theorem Number.atMost_mono {level : Number} {m n : Int} (le : m ≤ n)
    (atMost : level.atMost m = true) : level.atMost n = true := by
  cases level with
  | int k =>
      simp only [Number.atMost, decide_eq_true_eq] at atMost ⊢
      omega
  | double x =>
      cases x with
      | nan => exact atMost
      | infinite negative => exact atMost
      | finite negative mantissa exponent =>
          simp only [Number.atMost, Double.atMost, decide_eq_true_eq] at atMost ⊢
          have unit : (0 : Int) ≤ Int.pow 2 (-exponent).toNat := Int.pow_nonneg (by decide)
          exact atMost.trans (Int.mul_le_mul_of_nonneg_right le unit)

namespace Node

variable {α : Type}

mutual
/-- The depths of the expressions of a tree, itself included. -/
def expressionDepths : Node α → List Int
  | .expression children frame => frame.depth :: expressionDepthsOfAll children
  | _ => []

def expressionDepthsOfAll : List (Node α) → List Int
  | [] => []
  | node :: rest => node.expressionDepths ++ expressionDepthsOfAll rest
end

mutual
theorem cuts_eq_nil {level : Number} (node : Form)
    (deep : ∀ depth ∈ node.expressionDepths, level.atMost (depth + 1) = false) :
    node.cuts level = [] := by
  cases node with
  | expression children frame =>
      have kept := deep frame.depth List.mem_cons_self
      rw [cuts, if_neg (by simp [kept])]
      exact cutsOfAll_eq_nil children fun depth member => deep depth (List.mem_cons_of_mem _ member)
  | _ => rfl

theorem cutsOfAll_eq_nil {level : Number} (nodes : List Form)
    (deep : ∀ depth ∈ expressionDepthsOfAll nodes, level.atMost (depth + 1) = false) :
    cutsOfAll level nodes = [] := by
  cases nodes with
  | nil => rfl
  | cons node rest =>
      obtain ⟨here, later⟩ := List.forall_mem_append.mp deep
      rw [cutsOfAll, cuts_eq_nil node here, cutsOfAll_eq_nil rest later]
      rfl
end

end Node

namespace Phrase

mutual
theorem depth_bounds (phrase : Phrase) (depth : Nat) :
    ∀ d ∈ (phrase.node depth).expressionDepths,
      (depth : Int) ≤ d ∧ d < ((depth + phrase.height : Nat) : Int) := by
  cases phrase with
  | form items =>
      rw [node, Node.expressionDepths, List.forall_mem_cons, height]
      refine ⟨by simp, fun d member => ?_⟩
      have inside := depth_bounds_row items (depth + 1) d member
      omega
  | _ => simp [node, Node.expressionDepths]

theorem depth_bounds_row (items : List Phrase) (depth : Nat) :
    ∀ d ∈ Node.expressionDepthsOfAll (nodes depth items),
      (depth : Int) ≤ d ∧ d < ((depth + heightOfAll items : Nat) : Int) := by
  cases items with
  | nil => simp [nodes, Node.expressionDepthsOfAll]
  | cons item rest =>
      rw [nodes, Node.expressionDepthsOfAll, List.forall_mem_append, heightOfAll]
      constructor
      · intro d member
        have inside := depth_bounds item depth d member
        omega
      · intro d member
        have inside := depth_bounds_row rest depth d member
        omega
end

mutual
/-- There is an expression at every depth above the height of a phrase. -/
theorem exists_depth (phrase : Phrase) (depth : Nat) {k : Nat} (below : k < phrase.height) :
    ((depth + k : Nat) : Int) ∈ (phrase.node depth).expressionDepths := by
  cases phrase with
  | form items =>
      rw [node, Node.expressionDepths, List.mem_cons]
      cases k with
      | zero => exact .inl (by simp)
      | succ k =>
          rw [height] at below
          have inside := exists_depth_row items (depth + 1) (k := k) (by omega)
          exact .inr (by rwa [Nat.add_right_comm, Nat.add_assoc] at inside)
  | _ => simp [height] at below

theorem exists_depth_row (items : List Phrase) (depth : Nat) {k : Nat}
    (below : k < heightOfAll items) :
    ((depth + k : Nat) : Int) ∈ Node.expressionDepthsOfAll (nodes depth items) := by
  cases items with
  | nil => simp [heightOfAll] at below
  | cons item rest =>
      rw [nodes, Node.expressionDepthsOfAll, List.mem_append]
      rcases Nat.lt_or_ge k item.height with here | above
      · exact .inl (exists_depth item depth here)
      · rw [heightOfAll] at below
        exact .inr (exists_depth_row rest depth (by omega))
end

end Phrase

/-! ### Parentheses of a view -/

/-- The opening parentheses of a text. -/
def openings (text : String) : Nat :=
  text.toList.count '('

theorem Token.IsRun.openings {text : String} (isRun : IsRun text) : openings text = 0 := by
  rw [Stepper.openings, List.count_eq_zero]
  intro member
  cases isRun.2 '(' member

theorem openings_intercalate (texts : List String) :
    openings (" ".intercalate texts) = (texts.map openings).sum := by
  induction texts with
  | nil => rfl
  | cons text rest ih =>
      cases rest with
      | nil => simp [String.intercalate_singleton]
      | cons next rest =>
          have space : (" ".toList).count '(' = 0 := by decide
          rw [List.map_cons, List.sum_cons, ← ih, String.intercalate_cons_cons]
          simp only [openings, String.toList_append, List.count_append, space]
          omega

theorem openings_parenthesized (texts : List String) :
    openings (Node.parenthesized texts) = (texts.map openings).sum + 1 := by
  have opened : ("(".toList).count '(' = 1 := by decide
  have closed : (")".toList).count '(' = 0 := by decide
  rw [← openings_intercalate]
  simp only [openings, Node.parenthesized, String.toList_append, List.count_append, opened, closed]
  omega

namespace Phrase

variable {level : Number}

mutual
/-- A view has a pair of parentheses for each expression that it does not cut. -/
theorem openings_view {first : Bool} (phrase : Phrase) (depth : Nat)
    (scanned : phrase.ScannedAt first) {view : Phrase}
    (viewed : (phrase.node depth).ViewAs level (fun _ => IsRun) view) :
    openings view.text =
      (phrase.node depth).expressionDepths.countP fun d => !level.atMost (d + 1) := by
  cases phrase with
  | operator name =>
      cases viewed
      exact scanned.2.openings
  | argument text =>
      obtain ⟨_, same, rfl⟩ := viewed
      cases same
      exact scanned.openings
  | form items =>
      have bounds := depth_bounds (.form items) depth
      rw [node, Node.ViewAs] at viewed
      rw [node, Node.expressionDepths] at bounds ⊢
      split at viewed
      · rename_i cut
        obtain ⟨word, isRun, rfl⟩ := viewed
        -- below an expression that is cut, every other is cut too
        rw [text, isRun.openings, eq_comm, List.countP_eq_zero]
        intro d member
        have deeper := (bounds d member).1
        simp [Number.atMost_mono (show (depth : Int) + 1 ≤ d + 1 by omega) cut]
      · rename_i kept
        obtain ⟨row, viewedRow, rfl⟩ := viewed
        rw [text, openings_parenthesized, openings_row items (depth + 1) scanned viewedRow,
          List.countP_cons_of_pos (by simpa using kept)]

theorem openings_row {first : Bool} (items : List Phrase) (depth : Nat)
    (scanned : ScannedRow first items) {row : List Phrase}
    (viewed : Node.ViewRow level (fun _ => IsRun) (nodes depth items) row) :
    ((texts row).map openings).sum =
      (Node.expressionDepthsOfAll (nodes depth items)).countP fun d => !level.atMost (d + 1) := by
  cases items with
  | nil =>
      cases viewed
      rfl
  | cons item rest =>
      obtain ⟨view, others, here, more, rfl⟩ := viewed
      rw [texts, List.map_cons, List.sum_cons, nodes, Node.expressionDepthsOfAll,
        List.countP_append, openings_view item depth scanned.1 here,
        openings_row rest depth scanned.2 more]
end

end Phrase

/-! ### One view after another -/

/-- The levels of the views of a tree, step by step. -/
def viewLevels (height : Nat) : List Number :=
  .double (.infinite false) :: (List.range height).map fun i => .int ((height - i : Nat) : Int)

section Views

variable {limit home : Nat} {state after : State} {root : Form}

theorem explainDown_eq (limit home : Nat) (node : Form) (count : Nat) :
    explainDown limit home node count =
      ((List.range count).map fun i => Number.int ((count - i : Nat) : Int)).mapM
        fun level => explain limit home level node := by
  induction count with
  | zero => rfl
  | succ count ih =>
      rw [explainDown, List.range_succ_eq_map, List.map_cons, List.map_map, List.mapM_cons, ih]
      simp only [Nat.sub_zero, Function.comp_def, Nat.succ_eq_add_one, Nat.add_sub_add_right]

theorem explainSteps_eq (limit home : Nat) {node : Form} {height : Nat}
    (levels : node.height? = some (height : Int)) :
    explainSteps limit home node =
      (viewLevels height).mapM fun level => explain limit home level node := by
  rw [explainSteps, viewLevels, List.mapM_cons, levels, Option.getD_some, Int.toNat_natCast,
    explainDown_eq]

/-- The views of a tree evaluate what each of them cuts, one view after another. -/
theorem views_run {shows : Form → String → Prop} (written : root.WrittenAt false)
    (compound : root.isLiteral = false) (levels : List Number)
    (shown : Shown limit home shows (levels.flatMap fun level => root.cuts level) state after) :
    ∃ views : List Phrase,
      levels.mapM (fun level => explain limit home level root) state =
        .ok (views.map Phrase.text) after ∧
      List.Forall₂ (fun level view => root.ViewAs level shows view) levels views := by
  induction levels generalizing state with
  | nil =>
      cases shown
      exact ⟨[], rfl, .nil⟩
  | cons level levels ih =>
      obtain ⟨middle, here, later⟩ := shown.of_append
      obtain ⟨view, viewed, ran⟩ := explain_view root written compound here
      obtain ⟨views, ranLater, viewedLater⟩ := ih later
      refine ⟨view :: views, ?_, .cons viewed viewedLater⟩
      rw [List.mapM_cons, Eval.bind_ok ran, Eval.bind_ok ranLater]
      rfl

/-- In a sound state, values that can be written are written as words. -/
theorem shown_of_evaluated {nodes : List Form} {values : List Value}
    (written : ∀ node ∈ nodes, node.WrittenAt false) (sound : state.Sound home)
    (ran : nodes.mapM (evaluate limit home false) state = .ok values after)
    (writable : ∀ value ∈ values, ∃ text, value.format = .ok text) :
    Shown limit home (fun _ => IsRun) nodes state after := by
  induction nodes generalizing state values with
  | nil =>
      cases ran
      exact .nil
  | cons node rest ih =>
      rw [List.mapM_cons] at ran
      obtain ⟨value, middle, evaluated, more⟩ := Eval.of_bind_ok ran
      obtain ⟨others, _, ranRest, ended⟩ := Eval.of_bind_ok more
      cases ended
      obtain ⟨text, formatted⟩ := writable value List.mem_cons_self
      have kept := evaluate_safe limit false (.inr (written node List.mem_cons_self)) state sound
      rw [attempt_ok evaluated] at kept
      obtain ⟨isDatum, soundMiddle⟩ := kept
      refine .cons ?_ (Value.IsPlain.isRun_format (.inl isDatum) formatted) (ih
        (fun other member => written other (List.mem_cons_of_mem _ member)) soundMiddle ranRest
        fun other member => writable other (List.mem_cons_of_mem _ member))
      rw [writeValue, Eval.bind_ok evaluated, formatted]
      rfl

end Views

/-! ### One level less at a time -/

namespace Phrase

variable (items : List Phrase)

/-- The number of expressions of a tree above a depth. -/
theorem countP_viewLevels :
    (viewLevels (form items).height).map
        (fun level => (tree items).expressionDepths.countP fun d => !level.atMost (d + 1)) =
      (List.range ((form items).height + 1)).map fun i : Nat =>
        (tree items).expressionDepths.countP fun d =>
          decide (d < ((form items).height : Int) - i) := by
  rw [viewLevels, List.range_succ_eq_map, List.map_cons, List.map_cons, List.map_map, List.map_map]
  congr 1
  · refine List.countP_congr fun d member => ?_
    have bounds := depth_bounds (form items) 0 d member
    simp only [Number.atMost, Double.atMost, Bool.not_false, decide_eq_true_eq, true_iff]
    omega
  · refine List.map_congr_left fun i member => ?_
    have below := List.mem_range.mp member
    refine List.countP_congr fun d _ => ?_
    simp only [Number.atMost, Bool.not_eq_true', decide_eq_false_iff_not, decide_eq_true_eq]
    omega

theorem countP_depth_lt {i j : Nat} (less : i < j) (bound : j ≤ (form items).height) :
    (tree items).expressionDepths.countP (fun d => decide (d < ((form items).height : Int) - j)) <
      (tree items).expressionDepths.countP
        (fun d => decide (d < ((form items).height : Int) - i)) := by
  have occurs := exists_depth (form items) 0 (k := (form items).height - j) (by omega)
  obtain ⟨before, others, split⟩ := List.append_of_mem occurs
  have mono : ∀ row : List Int,
      row.countP (fun d => decide (d < ((form items).height : Int) - j)) ≤
        row.countP (fun d => decide (d < ((form items).height : Int) - i)) := by
    intro row
    refine List.countP_mono_left fun d _ deeper => ?_
    simp only [decide_eq_true_eq] at deeper ⊢
    omega
  have fewerBefore := mono before
  have fewerAfter := mono others
  rw [show (tree items).expressionDepths = _ from split, List.countP_append, List.countP_append,
    List.countP_cons_of_neg (by simp; omega), List.countP_cons_of_pos (by simp; omega)]
  omega

theorem countP_depth_pairwise :
    ((List.range ((form items).height + 1)).map fun i : Nat =>
      (tree items).expressionDepths.countP
        fun d => decide (d < ((form items).height : Int) - i)).Pairwise (· > ·) := by
  rw [List.pairwise_map]
  refine List.Pairwise.imp_of_mem ?_ List.pairwise_lt_range
  intro i j _ member less
  exact countP_depth_lt items less (Nat.le_of_lt_succ (List.mem_range.mp member))

theorem countP_depth_height :
    (tree items).expressionDepths.countP
      (fun d => decide (d < ((form items).height : Int) - (form items).height)) = 0 := by
  refine List.countP_eq_zero.mpr fun d member => ?_
  have bounds := depth_bounds (.form items) 0 d member
  simp only [decide_eq_true_eq]
  omega

end Phrase

theorem viewLevels_succ (height : Nat) :
    viewLevels (height + 1) = (viewLevels (height + 1)).dropLast ++ [.int 1] := by
  have last : viewLevels (height + 1) = (.double (.infinite false) ::
      (List.range height).map fun i => .int ((height + 1 - i : Nat) : Int)) ++ [.int 1] := by
    rw [viewLevels, List.range_succ, List.map_append, List.map_singleton, Nat.add_sub_cancel_left]
    rfl
  rw [last, List.dropLast_concat]

section Steps

variable {limit home : Nat} {state after : State} {items : List Phrase}

theorem Phrase.cuts_whole {level : Number} (above : level.atMost (form items).height = false) :
    (tree items).cuts level = [] := by
  refine Node.cuts_eq_nil _ fun d member => Bool.eq_false_iff.mpr fun cut => ?_
  have bounds := depth_bounds (.form items) 0 d member
  rw [Number.atMost_mono (by omega) cut] at above
  cases above

theorem Phrase.text_view_whole {level : Number}
    (above : level.atMost (form items).height = false) {shows : Form → String → Prop}
    {view : Phrase} (viewed : (tree items).ViewAs level shows view) :
    view.text = (form items).text := by
  have rendered := Node.ViewAs.render _ viewed (cuts_whole above)
  rw [render_tree] at rendered
  exact (Except.ok.inj rendered).symm

/-- Above the height of a form, its view is its text, and nothing is evaluated. -/
theorem explain_whole (scanned : Phrase.ScannedRow true items) {level : Number}
    (above : level.atMost (Phrase.form items).height = false) (limit home : Nat) (state : State) :
    explain limit home level (Phrase.tree items) state =
      .ok (Phrase.form items).text state := by
  have shown : Shown limit home (fun _ => IsRun) ((Phrase.tree items).cuts level) state state := by
    rw [Phrase.cuts_whole above]
    exact .nil
  obtain ⟨view, viewed, ran⟩ := explain_view _ (Phrase.writtenAt_tree scanned) rfl shown
  rw [ran, Phrase.text_view_whole above viewed]

/-- In a sound state the step-by-step views of a form exist as soon as what they
cut can be evaluated and written. -/
theorem explainSteps_views (scanned : Phrase.ScannedRow true items) (sound : state.Sound home)
    {values : List Value}
    (ran : ((viewLevels (Phrase.form items).height).flatMap
      fun level => (Phrase.tree items).cuts level).mapM (evaluate limit home false) state =
        .ok values after)
    (writable : ∀ value ∈ values, ∃ text, value.format = .ok text) :
    ∃ views : List Phrase,
      (viewLevels (Phrase.form items).height).mapM
        (fun level => explain limit home level (Phrase.tree items)) state =
          .ok (views.map Phrase.text) after ∧
      List.Forall₂ (fun level view => (Phrase.tree items).ViewAs level (fun _ => IsRun) view)
        (viewLevels (Phrase.form items).height) views := by
  have written := Phrase.writtenAt_tree scanned
  refine views_run written rfl _ (shown_of_evaluated (fun node member => ?_) sound ran writable)
  obtain ⟨level, _, isCut⟩ := List.mem_flatMap.mp member
  exact Node.WrittenAt.of_cuts _ written node isCut

theorem head_views {height : Nat} {shows : Form → String → Prop} {views : List Phrase}
    (viewed : List.Forall₂ (fun level view => (Phrase.tree items).ViewAs level shows view)
      (viewLevels height) views) :
    (views.map Phrase.text).head? = some (Phrase.form items).text := by
  cases viewed with
  | cons here _ =>
      rw [List.map_cons, List.head?_cons, Phrase.text_view_whole rfl here]

/-- The parentheses of the views of a form, step by step. -/
theorem openings_views (scanned : Phrase.ScannedRow true items) {views : List Phrase}
    (viewed : List.Forall₂
      (fun level view => (Phrase.tree items).ViewAs level (fun _ => IsRun) view)
      (viewLevels (Phrase.form items).height) views) :
    (views.map Phrase.text).map openings =
      (List.range ((Phrase.form items).height + 1)).map fun i : Nat =>
        (Phrase.tree items).expressionDepths.countP
          fun d => decide (d < ((Phrase.form items).height : Int) - i) := by
  rw [← Phrase.countP_viewLevels, List.map_map, eq_comm, ← List.forall₂_eq_eq_eq,
    List.forall₂_map_left_iff, List.forall₂_map_right_iff]
  have asForm : (Phrase.form items).ScannedAt false := scanned
  exact viewed.imp fun level view here => (Phrase.openings_view _ 0 asForm here).symm

/-- The last view of a form is its value in the state that the others leave. -/
theorem explainSteps_last {height : Nat} {views : List String}
    (ran : (viewLevels (height + 1)).mapM
      (fun level => explain limit home level (Phrase.tree items)) state = .ok views after) :
    ∃ earlier last middle value, views = earlier ++ [last] ∧
      (viewLevels (height + 1)).dropLast.mapM
        (fun level => explain limit home level (Phrase.tree items)) state = .ok earlier middle ∧
      evaluate limit home false (Phrase.tree items) middle = .ok value after ∧
      value.format = .ok last := by
  rw [viewLevels_succ, List.mapM_append] at ran
  obtain ⟨earlier, middle, ranEarlier, more⟩ := Eval.of_bind_ok ran
  obtain ⟨lasts, _, ranLast, ended⟩ := Eval.of_bind_ok more
  cases ended
  rw [List.mapM_cons] at ranLast
  obtain ⟨last, _, explained, nothing⟩ := Eval.of_bind_ok ranLast
  cases nothing
  have cut : (Number.int 1).atMost (0 + 1) = true := rfl
  rw [Phrase.tree, explain, if_pos cut] at explained
  obtain ⟨value, _, evaluated, formatted⟩ := Eval.of_bind_ok explained
  cases written : value.format with
  | error failure =>
      rw [written] at formatted
      cases formatted
  | ok text =>
      rw [written] at formatted
      cases formatted
      exact ⟨earlier, last, middle, value, rfl, ranEarlier, evaluated, written⟩

end Steps

/-- Above the height of an expression a view is its text. If every evaluation
that the step-by-step views ask for succeeds, with a value that can be written,
there is one view more than there are levels of parentheses. The first is the
text; view `i` has an opening parenthesis for each expression less than
`height - i` deep; the last is the value in the state that the others leave. -/
theorem views_peel_one_level {interpreter : Interpreter} {state : State}
    (reached : interpreter.Reached state) {source : String} {children : List Form} {frame : Frame}
    (read : Node.readForm source = .ok (.expression children frame)) (limit : Nat) :
    let root : Form := .expression children frame
    ∃ (height : Nat) (text : String), frame.height = height ∧ root.render = .ok text ∧
      (∀ level : Number, level.atMost frame.height = false →
        root.cuts level = [] ∧ ∀ limit state,
          interpreter.perform limit (.explain level) source state = .ok (.view text) state) ∧
      ∀ values after,
        ((viewLevels height).flatMap fun level => root.cuts level).mapM
          (evaluate limit interpreter.home false) state = .ok values after →
        (∀ value ∈ values, ∃ text, value.format = .ok text) →
        ∃ earlier last middle value,
          interpreter.perform limit .explainSteps source state =
            .ok (.views (earlier ++ [last])) after ∧
          earlier.length = height ∧ (earlier ++ [last]).head? = some text ∧
          (earlier ++ [last]).map openings = (List.range (height + 1)).map (fun i : Nat =>
            root.expressionDepths.countP fun depth => decide (depth < (height : Int) - i)) ∧
          ((earlier ++ [last]).map openings).Pairwise (· > ·) ∧ openings last = 0 ∧
          (viewLevels height).dropLast.mapM
            (fun level => explain limit interpreter.home level root) state = .ok earlier middle ∧
          evaluate limit interpreter.home false root middle = .ok value after ∧
          value.format = .ok last := by
  intro root
  obtain ⟨items, scanned, isTree⟩ := Node.exists_items_of_readForm read
  have isRoot : root = Phrase.tree items := isTree
  have tall : frame.height = (Phrase.form items).height := by
    cases isTree
    rfl
  refine ⟨(Phrase.form items).height, (Phrase.form items).text, tall,
    by rw [isRoot, Phrase.render_tree], fun level above => ?_, fun values after ran writable => ?_⟩
  · rw [tall] at above
    refine ⟨isRoot ▸ Phrase.cuts_whole above, fun limit state => ?_⟩
    rw [Interpreter.perform_keeping read rfl, isTree,
      Eval.bind_ok (explain_whole scanned above limit interpreter.home state)]
    rfl
  · rw [isRoot] at ran ⊢
    obtain ⟨views, explained, viewed⟩ := explainSteps_views scanned reached.sound ran writable
    have counts := openings_views scanned viewed
    have performed : interpreter.perform limit .explainSteps source state =
        .ok (.views (views.map Phrase.text)) after := by
      rw [Interpreter.perform_keeping read rfl, isTree, explainSteps_eq limit _ rfl,
        Eval.bind_ok explained]
      rfl
    obtain ⟨earlier, last, middle, value, split, ranEarlier, evaluated, formatted⟩ :=
      explainSteps_last explained
    have first := head_views viewed
    rw [split] at counts performed first
    have size : earlier.length = (Phrase.form items).height := by
      have lengths := congrArg List.length counts
      simpa using lengths
    have decreasing : ((earlier ++ [last]).map openings).Pairwise (· > ·) :=
      counts ▸ Phrase.countP_depth_pairwise items
    have none : openings last = 0 := by
      have ends := congrArg List.getLast? counts
      rw [List.range_succ] at ends
      simp only [List.map_append, List.map_singleton, List.getLast?_concat] at ends
      rw [Option.some.inj ends, Phrase.countP_depth_height]
    exact ⟨earlier, last, middle, value, performed, size, first, counts, decreasing, none,
      ranEarlier, evaluated, formatted⟩

/-- The texts of the values that a run gives, if it gives any. -/
def texts? : EStateM.Result Failure State (List Value) → Option (List (Option String))
  | .ok values _ => some (values.map fun value => value.format.toOption)
  | .error .. => none

theorem of_texts? {run : EStateM.Result Failure State (List Value)} {texts : List String}
    (gives : texts? run = some (texts.map some)) :
    ∃ values after, run = .ok values after ∧ ∀ value ∈ values, ∃ text, value.format = .ok text := by
  cases run with
  | error failure after => cases gives
  | ok values after =>
      refine ⟨values, after, rfl, fun value member => ?_⟩
      have written : value.format.toOption ∈ texts.map some :=
        Option.some.inj gives ▸ List.mem_map_of_mem member
      obtain ⟨text, _, isText⟩ := List.mem_map.mp written
      cases formatted : value.format with
      | ok text => exact ⟨text, rfl⟩
      | error failure =>
          rw [formatted] at isText
          cases isText

/-- `square` binds its formal in the table that the views share. -/
def squareSession : State :=
  (attempt (Interpreter.serve ⟨0, 10⟩ 50 (.load "(define (square x) (cond (else (* x x))))")) {}).2

theorem views_peel_one_level_square :
    let source := "(+ (- 1 (square (+ 1 2))) (square 2))"
    ∃ children frame, Interpreter.Reached ⟨0, 10⟩ squareSession ∧
      Node.readForm source = .ok (.expression children frame) ∧ frame.height = 4 ∧
      ∃ views after,
        Interpreter.perform ⟨0, 10⟩ 50 .explainSteps source squareSession =
          .ok (.views views) after ∧
        views.head? = some source ∧ views.map openings = [5, 4, 3, 1, 0] := by
  intro source
  let items : List Phrase := [.operator "+",
    .form [.operator "-", .argument "1",
      .form [.operator "square", .form [.operator "+", .argument "1", .argument "2"]]],
    .form [.operator "square", .argument "2"]]
  have reached : Interpreter.Reached ⟨0, 10⟩ squareSession := .serve 50 _ (.start rfl)
  have spelled : Token.content source = (Phrase.form items).tokens := by decide +kernel
  have read := Node.readForm_form spelled
  have evaluated : texts? (((viewLevels 4).flatMap fun level => (Phrase.tree items).cuts level).mapM
      (evaluate 50 0 false) squareSession) =
        some (["3", "9", "-8", "4", "-4"].map some) := by decide +kernel
  obtain ⟨values, after, ran, writable⟩ := of_texts? evaluated
  obtain ⟨height, text, tall, rendered, _, steps⟩ := views_peel_one_level reached read 50
  obtain rfl : height = 4 := (Int.ofNat.inj tall).symm
  obtain ⟨earlier, last, _, _, performed, _, first, counts, _⟩ := steps values after ran writable
  have isSource : (Phrase.tree items).render = .ok source := by
    rw [Phrase.render_tree]
    rfl
  cases rendered.symm.trans isSource
  exact ⟨_, _, reached, read, rfl, _, after, performed, first, counts.trans (by decide)⟩

theorem format_long {n : Int} (long : ¬ n.natAbs < integerBound) :
    (Value.int n).format = .error (.badValue .longInteger) := by
  change integerText n = _
  rw [integerText, if_neg long]

/-- An evaluation may succeed and its value be too long to write: then the views
fail, in the step that would show it. -/
theorem views_fail_on_long_value :
    ∃ source items, Interpreter.Reached ⟨0, 10⟩ {} ∧
      Node.readForm source = .ok (Phrase.tree items) ∧
      ((viewLevels (Phrase.form items).height).flatMap
        fun level => (Phrase.tree items).cuts level).mapM (evaluate 50 0 false) {} =
          .ok [.int integerBound] {} ∧
      Interpreter.perform ⟨0, 10⟩ 50 .explainSteps source {} =
        .error (.badValue .longInteger) {} := by
  have powers : ∀ digits, 0 < Nat.pow 10 digits := fun _ => Nat.pow_pos (Nat.succ_pos 9)
  have positive : 0 < integerBound := by
    rw [integerBound]
    exact powers maxDigits
  have bounded : ((integerBound : Int) - 1).natAbs < integerBound := by omega
  let one : Decimal := ⟨.none, ['1'], by decide, List.all_eq_true.mp (by decide), by decide⟩
  let operands : List Arithmetic := [.leaf (.ofInt (integerBound - 1) bounded), .leaf one]
  let items : List Phrase := .operator "+" :: Arithmetic.phrases operands
  have fresh : State.workspace {} 0 = .fresh := rfl
  have sum : Operation.sum.compute (Arithmetic.values operands) = integerBound := by
    have first : (Decimal.ofInt (integerBound - 1) bounded).value = integerBound - 1 :=
      Decimal.value_ofInt bounded
    have second : one.value = 1 := by decide
    simp only [operands, Arithmetic.values, Arithmetic.value, Operation.compute, first, second,
      List.sum_cons, List.sum_nil]
    omega
  have evaluated : evaluate 50 0 false (Phrase.tree items) {} = .ok (.int integerBound) {} := by
    rw [← sum]
    exact Arithmetic.eval_apply fresh .sum (Arithmetic.evalAll_phrases fresh operands 2 1)
  have read : Node.readForm (Arithmetic.apply .sum operands).text = .ok (Phrase.tree items) :=
    Arithmetic.read_apply .sum operands
  have long : (Value.int integerBound).format = .error (.badValue .longInteger) :=
    format_long (by simp only [Int.natAbs_natCast, Nat.lt_irrefl, not_false_eq_true])
  have cut : (Number.int 1).atMost (0 + 1) = true := rfl
  have last :
      explain 50 0 (.int 1) (Phrase.tree items) {} = .error (.badValue .longInteger) {} := by
    rw [Phrase.tree, explain, if_pos cut, ← Phrase.tree, Eval.bind_ok evaluated, long]
    rfl
  have spelled : Token.content (Arithmetic.apply .sum operands).text = (Phrase.form items).tokens :=
    Phrase.content_text (Arithmetic.spelled_phrase (.apply .sum operands))
  have infinite : (Number.double (.infinite false)).atMost (Phrase.form items).height = false := rfl
  have whole := explain_whole (Phrase.scannedRow_of_content spelled) infinite 50 0 {}
  refine ⟨_, items, .start rfl, read, ?_, ?_⟩
  · change [Phrase.tree items].mapM (evaluate 50 0 false) {} = _
    rw [List.mapM_cons, Eval.bind_ok evaluated]
    rfl
  · have views : [.double (.infinite false), .int 1].mapM
        (fun level => explain 50 0 level (Phrase.tree items)) {} =
          .error (.badValue .longInteger) {} := by
      rw [List.mapM_cons, Eval.bind_ok whole, List.mapM_cons]
      exact Eval.bind_error (Eval.bind_error last)
    rw [Interpreter.perform_keeping read rfl, explainSteps_eq 50 0 rfl]
    exact Eval.bind_error views

end Stepper
