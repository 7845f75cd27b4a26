import Terminay.Folders.PassCommands
import Terminay.Lib.Runs
import Terminay.Script.Integers

/-!
# Runs of the folder reconciler

Passes of one project never overlap and close no panel.
-/

namespace Terminay.Folders
open Script Workspace

variable {ν : Type}

/-- What the run owes and keeps in every state it reaches. A call is owed from the moment it is
made until a pass of its project reads the listing. -/
structure Keeps (s : FolderReconciler ν) : Prop where
  apart : (s.loops.map (·.projectId)).Nodup
  quiet : ∀ e ∈ s.issued, e.held = 0
  panels : ∀ e ∈ s.issued, PanelsOpen e.before e.after
  /-- Once no suspension remains a pass is under way, and it reads the listing again within so
  many answers. -/
  followed : ∀ (projectId : ProtocolId) (n : ℕ), s.owed[projectId]? = some n →
    n ≤ s.longest + 4 ∧ (s.held projectId = 0 →
      ∃ l ∈ s.loops, l.projectId = projectId ∧ l.stage ≠ .ended)

def FolderReconciler.ending (s : FolderReconciler ν) (projectId : ProtocolId) : Bool :=
  s.loops.any fun l => l.projectId == projectId && l.stage == .ended

def Heard (s : FolderReconciler ν) (projectId : ProtocolId) (held : ℕ) : Prop :=
  s.isOpen projectId = true → held = 0 → s.ending projectId = false

def Unheld (s : FolderReconciler ν) (loop : ℕ) : Prop :=
  ∀ l, s.loops[loop]? = some l → s.held l.projectId = 0

instance (s : FolderReconciler ν) (loop : ℕ) : Decidable (Unheld s loop) :=
  inferInstanceAs (Decidable (∀ l ∈ s.loops[loop]?, s.held l.projectId = 0))

instance (s : FolderReconciler ν) (projectId : ProtocolId) (held : ℕ) :
    Decidable (Heard s projectId held) :=
  inferInstanceAs (Decidable (_ → _ → _))

/-- The moments that keep what is owed. -/
def Steady (s : FolderReconciler ν) : Moment ν → Prop
  | .reconcile projectId | .gitChange projectId _ => Heard s projectId (s.held projectId)
  | .resume hold => ∀ h ∈ s.holds[hold]?, h.resumed = false → h.projectId ∈ s.again →
      Heard s h.projectId (s.held h.projectId - 1)
  | .release projectId =>
    s.held projectId = 0 ∧ (s.isOpen projectId = true → projectId ∉ s.again)
  | .listing loop (some listing) => listing.state = js "not-repository" → Unheld s loop
  | .root loop (some (some _)) => Unheld s loop
  | .creator loop _ _ => Unheld s loop
  | _ => True

instance (s : FolderReconciler ν) : (moment : Moment ν) → Decidable (Steady s moment)
  | .reconcile projectId | .gitChange projectId _ =>
    inferInstanceAs (Decidable (Heard s projectId (s.held projectId)))
  | .resume hold => inferInstanceAs (Decidable (∀ h ∈ s.holds[hold]?, h.resumed = false →
      h.projectId ∈ s.again → Heard s h.projectId (s.held h.projectId - 1)))
  | .release projectId => inferInstanceAs (Decidable
      (s.held projectId = 0 ∧ (s.isOpen projectId = true → projectId ∉ s.again)))
  | .listing loop (some listing) =>
    inferInstanceAs (Decidable (listing.state = js "not-repository" → Unheld s loop))
  | .root loop (some (some _)) => inferInstanceAs (Decidable (Unheld s loop))
  | .creator loop _ _ => inferInstanceAs (Decidable (Unheld s loop))
  | .listing _ none | .root _ none | .root _ (some none) | .suspend _ | .relink .. | .proceed _
  | .finish _ | .workspace .. => .isTrue trivial

/-! ## The invariant -/

theorem Stage.remaining_mono {n a b : ℕ} {stage : Stage} (h : n + stage.remaining a ≤ a + 4)
    (hab : a ≤ b) : n + stage.remaining b ≤ b + 4 := by
  cases stage <;> simp only [Stage.remaining] at h ⊢ <;> omega

structure Kept (s : FolderReconciler ν) (projectId : ProtocolId) (n : ℕ) : Prop where
  again : projectId ∈ s.again
  soon : n ≤ s.longest + 4
  within : ∀ l ∈ s.loops, l.projectId = projectId → n + l.stage.remaining s.longest ≤ s.longest + 4

structure Framed (s : FolderReconciler ν) : Prop where
  apart : (s.loops.map (·.projectId)).Nodup
  running : ∀ p, p ∈ s.running ↔ p ∈ s.loops.map (·.projectId)
  counts : ∀ p, (s.suspended[p]?).getD 0 = s.held p
  positive : ∀ p : ProtocolId, s.suspended[p]? ≠ some 0
  fits : ∀ l ∈ s.loops, l.stage.remaining s.longest ≤ s.longest + 4
  issued : ∀ e ∈ s.issued, e.held = 0 ∧ PanelsOpen e.before e.after
  owed : ∀ (p : ProtocolId) (n : ℕ), s.owed[p]? = some n → s.isOpen p = true → Kept s p n

def Underway (s : FolderReconciler ν) (projectId : ProtocolId) : Prop :=
  (s.owed[projectId]?).isSome = true → s.isOpen projectId = true → s.held projectId = 0 →
    ∃ l ∈ s.loops, l.projectId = projectId ∧ l.stage ≠ .ended

structure Sound (s : FolderReconciler ν) : Prop extends Framed s where
  underway : ∀ p, Underway s p

def Opened (s : FolderReconciler ν) : Prop :=
  ∀ p : ProtocolId, (s.owed[p]?).isSome = true → s.isOpen p = true

variable {s t : FolderReconciler ν} {p : ProtocolId}

theorem held_eq (h : t.holds = s.holds) (p : ProtocolId) : t.held p = s.held p := by
  rw [FolderReconciler.held, h]
  rfl

theorem Framed.suspended_iff (h : Framed s) (p : ProtocolId) :
    s.suspended[p]? = none ↔ s.held p = 0 := by
  have hcount := h.counts p
  have hpositive := h.positive p
  rcases hs : s.suspended[p]? with _ | n
  · rw [hs] at hcount
    exact ⟨fun _ => hcount.symm, fun _ => rfl⟩
  · rw [hs] at hcount hpositive
    constructor
    · intro hn
      cases hn
    · intro hzero
      rw [hzero] at hcount
      cases hcount
      exact absurd rfl hpositive

theorem Framed.only (h : Framed s) {i : ℕ} {l l' : Loop} (hi : s.loops[i]? = some l)
    (hl' : l' ∈ s.loops) (hp : l'.projectId = l.projectId) : l' = l :=
  List.inj_on_of_nodup_map h.apart hl' (List.mem_of_getElem? hi) hp

/-! ## Answers to a pass -/

structure Beside (s t : FolderReconciler ν) : Prop where
  running : t.running = s.running
  again : t.again = s.again
  suspended : t.suspended = s.suspended
  holds : t.holds = s.holds
  loops : t.loops = s.loops

theorem Beside.of_works {q : ProtocolId} {u : FolderReconciler ν} (h : Beside s t)
    (hw : Works q t u) : Beside s u :=
  ⟨hw.running.trans h.running, hw.again.trans h.again, hw.suspended.trans h.suspended,
    hw.holds.trans h.holds, hw.loops.trans h.loops⟩

theorem counted_owed (s : FolderReconciler ν) (p q : ProtocolId) :
    (counted s p).owed[q]? = if p = q then s.owed[q]?.map (· + 1) else s.owed[q]? :=
  Table.get_update s.owed p (· + 1) q

theorem counted_isSome (s : FolderReconciler ν) (p q : ProtocolId) :
    ((counted s p).owed[q]?).isSome = (s.owed[q]?).isSome := by
  rw [counted_owed]
  split_ifs
  · rw [Option.isSome_map]
  · rfl

theorem Sound.goesOn (h : Sound s) (ho : Opened s) {i : ℕ} {old stage : Stage}
    (hi : s.loops[i]? = some ⟨p, old⟩) (hbeside : Beside s t) (howed : t.owed = (counted s p).owed)
    (hlongest : s.longest ≤ t.longest)
    (hissued : ∀ e ∈ t.issued, e.held = 0 ∧ PanelsOpen e.before e.after)
    (hstage : stage = .ended → (s.owed[p]?).isSome = true → s.held p ≠ 0)
    (hbound : ∀ n, n + old.remaining s.longest ≤ s.longest + 4 →
      n + 1 + stage.remaining t.longest ≤ t.longest + 4) :
    Sound (setStage t i p stage) := by
  have hi' : t.loops[i]? = some ⟨p, old⟩ := by rw [hbeside.loops, hi]
  have hapart : (t.loops.map (·.projectId)).Nodup := by rw [hbeside.loops]; exact h.apart
  have hmem : ∀ l ∈ t.loops.set i ⟨p, stage⟩, l = ⟨p, stage⟩ ∨ l ∈ s.loops ∧ l.projectId ≠ p := by
    intro l hl
    rcases Lists.mem_set_key hapart hi' hl with hl | ⟨hl, hne⟩
    · exact .inl hl
    · exact .inr ⟨hbeside.loops ▸ hl, hne⟩
  have hheld : ∀ q, (setStage t i p stage).held q = s.held q := held_eq hbeside.holds
  have hmap : (t.loops.set i ⟨p, stage⟩).map (·.projectId) = s.loops.map (·.projectId) := by
    rw [← hbeside.loops]
    exact Lists.map_set_key hi' rfl
  have hold := h.fits _ (List.mem_of_getElem? hi)
  have hkept : ∀ (q : ProtocolId) (n : ℕ), (counted s p).owed[q]? = some n →
      Kept (setStage t i p stage) q n := by
    intro q n hn
    rw [counted_owed] at hn
    split_ifs at hn with hq
    · subst hq
      obtain ⟨m, hm, rfl⟩ := Option.map_eq_some_iff.mp hn
      have hk := h.owed _ m hm (ho _ (by rw [hm]; rfl))
      have hnext := hbound m (hk.within _ (List.mem_of_getElem? hi) rfl)
      refine ⟨hbeside.again ▸ hk.again, ?_, ?_⟩
      · show m + 1 ≤ t.longest + 4
        omega
      · intro l hl hlp
        rcases hmem l hl with rfl | ⟨-, hne⟩
        · exact hnext
        · exact absurd hlp hne
    · have hk := h.owed q n hn (ho q (by rw [hn]; rfl))
      refine ⟨hbeside.again ▸ hk.again, ?_, ?_⟩
      · have hsoon := hk.soon
        show n ≤ t.longest + 4
        omega
      · intro l hl hlq
        rcases hmem l hl with rfl | ⟨hl, -⟩
        · exact absurd hlq hq
        · exact Stage.remaining_mono (hk.within l hl hlq) hlongest
  refine ⟨⟨?_, ?_, ?_, ?_, ?_, hissued, ?_⟩, ?_⟩
  · show ((t.loops.set i _).map _).Nodup
    rw [hmap]
    exact h.apart
  · intro q
    show q ∈ t.running ↔ q ∈ (t.loops.set i _).map _
    rw [hmap, hbeside.running]
    exact h.running q
  · intro q
    rw [hheld, ← h.counts q]
    exact congrArg (fun table : Table.Of ProtocolId ℕ => (table[q]?).getD 0) hbeside.suspended
  · intro q
    show t.suspended[q]? ≠ some 0
    rw [hbeside.suspended]
    exact h.positive q
  · intro l hl
    rcases hmem l hl with rfl | ⟨hl, -⟩
    · have hnext := hbound 0 (by simpa using hold)
      show stage.remaining t.longest ≤ t.longest + 4
      omega
    · have hfit := h.fits l hl
      have hmono : 0 + l.stage.remaining t.longest ≤ t.longest + 4 :=
        Stage.remaining_mono (by omega) hlongest
      show l.stage.remaining t.longest ≤ t.longest + 4
      omega
  · intro q n hn _
    exact hkept q n (howed ▸ hn)
  · intro q hq _ hzero
    have hs : (s.owed[q]?).isSome = true := by
      rw [← counted_isSome s p q, ← howed]
      exact hq
    rw [hheld] at hzero
    rcases eq_or_ne q p with rfl | hne
    · exact ⟨_, List.mem_set (List.getElem?_eq_some_iff.mp hi').1 _, rfl,
        fun hended => hstage hended hs hzero⟩
    · obtain ⟨l, hl, hlq, hended⟩ := h.underway q hs (ho q hs) hzero
      refine ⟨l, ?_, hlq, hended⟩
      exact Lists.mem_set_of_key (f := fun l : Loop => l.projectId) hi' (hbeside.loops ▸ hl)
        (by rw [hlq]; exact hne)

theorem Beside.counted (s : FolderReconciler ν) (p : ProtocolId) : Beside s (counted s p) :=
  ⟨rfl, rfl, rfl, rfl, rfl⟩

theorem Sound.waits (h : Sound s) (ho : Opened s) {i : ℕ} {old stage : Stage}
    (hi : s.loops[i]? = some ⟨p, old⟩) (hbeside : Beside s t) (howed : t.owed = (counted s p).owed)
    (hlongest : s.longest ≤ t.longest) (hissued : t.issued = s.issued) (hstage : stage ≠ .ended)
    (hbound : ∀ n, n + old.remaining s.longest ≤ s.longest + 4 →
      n + 1 + stage.remaining t.longest ≤ t.longest + 4) :
    Sound (setStage t i p stage) :=
  h.goesOn ho hi hbeside howed hlongest (by rw [hissued]; exact h.issued)
    (fun hended => absurd hended hstage) hbound

theorem Sound.works (h : Sound s) (ho : Opened s) {i : ℕ} {old : Stage}
    (hi : s.loops[i]? = some ⟨p, old⟩) (hbeside : Beside s t) (howed : t.owed = (counted s p).owed)
    (hlongest : s.longest ≤ t.longest) (hissued : t.issued = s.issued)
    (hfree : s.held p = 0) {pass : Doing ν Stage} {m : ℕ} (hpass : Proceeds p m pass) (hm : 2 ≤ m)
    (hbound : ∀ n, n + old.remaining s.longest ≤ s.longest + 4 → n + 1 + m ≤ t.longest + 4) :
    Sound (advance t i p pass) := by
  obtain ⟨u, stage, hworks, hwithin, hadvance⟩ := advance_cases hpass hm t i
  rw [hadvance]
  refine h.goesOn ho hi (hbeside.of_works hworks) (hworks.owed.trans howed)
    (hworks.longest ▸ hlongest) ?_ (fun hended => absurd hended hwithin.1) fun n hn => ?_
  · obtain ⟨more, hmore, hright⟩ := hworks.issued
    intro e he
    rw [hmore, hissued] at he
    rcases List.mem_append.mp he with he | he
    · exact h.issued e he
    · have heheld := (hright e he).2.1
      rw [held_eq hbeside.holds, hfree] at heheld
      exact ⟨heheld, (hright e he).2.2.2⟩
  · have hnext := hbound n hn
    have hrest := hwithin.2 u.longest
    rw [hworks.longest] at hrest ⊢
    omega

section Engine
variable [Engine ν] {host : Host ν}

theorem Sound.answerListing (h : Sound s) (ho : Opened s) {i : ℕ} {root : Str}
    (hi : s.loops[i]? = some ⟨p, .listing root⟩) {answer : Option ReconcilerWorktreeListing}
    (hfree : ∀ listing, answer = some listing → listing.state = js "not-repository" →
      s.held p = 0) :
    Sound (answerListing host (counted s p) i p root answer) := by
  have hlisting : ∀ n, n + Stage.remaining s.longest (.listing root) ≤ s.longest + 4 → n = 0 := by
    intro n hn
    simp only [Stage.remaining] at hn
    omega
  have hpassed : ∀ longest n, n + Stage.remaining s.longest (.listing root) ≤ s.longest + 4 →
      n + 1 + Stage.remaining longest .passed ≤ longest + 4 := by
    intro longest n hn
    rw [hlisting n hn]
    simp only [Stage.remaining]
    omega
  cases answer with
  | none => exact h.waits ho hi (.counted s p) rfl le_rfl rfl (by simp) (hpassed s.longest)
  | some listing =>
    have hlongest : s.longest ≤ max s.longest listing.worktrees.length := le_max_left _ _
    have hlength : listing.worktrees.length ≤ max s.longest listing.worktrees.length :=
      le_max_right _ _
    simp only [Folders.answerListing]
    split_ifs with hready hnone
    · refine h.waits ho hi ?_ rfl hlongest rfl (by simp) fun n hn => ?_
      · exact ⟨rfl, rfl, rfl, rfl, rfl⟩
      · rw [hlisting n hn]
        show 0 + 1 + (listing.worktrees.length + 3) ≤ max s.longest listing.worktrees.length + 4
        omega
    · refine h.works ho hi ?_ ?_ ?_ ?_ (hfree listing rfl hnone) (bringInLine_proceeds listing [])
        (by simp) fun n hn => ?_
      · exact ⟨rfl, rfl, rfl, rfl, rfl⟩
      · rfl
      · exact hlongest
      · rfl
      · exact hpassed _ n hn
    · refine h.waits ho hi ?_ rfl hlongest rfl (by simp) (hpassed _)
      exact ⟨rfl, rfl, rfl, rfl, rfl⟩

theorem Sound.answerRoot (h : Sound s) (ho : Opened s) {i : ℕ} {root : Str}
    {listing : ReconcilerWorktreeListing} (hi : s.loops[i]? = some ⟨p, .root root listing⟩)
    {answer : Option (Option Str)}
    (hfree : ∀ path, answer = some (some path) → s.held p = 0) :
    Sound (answerRoot host (counted s p) i p listing answer) := by
  have hpassed : ∀ n, n + Stage.remaining s.longest (.root root listing) ≤ s.longest + 4 →
      n + 1 + Stage.remaining s.longest .passed ≤ s.longest + 4 := by
    intro n hn
    simp only [Stage.remaining] at hn ⊢
    omega
  rcases answer with _ | _ | path
  · exact h.waits ho hi (.counted s p) rfl le_rfl rfl (by simp) hpassed
  · exact h.waits ho hi (.counted s p) rfl le_rfl rfl (by simp) hpassed
  · have hwanted := worktreesNeedingFolders_length listing.worktrees path
    refine h.works ho hi (Beside.counted s p) rfl le_rfl rfl (hfree path rfl)
      (bringInLine_proceeds listing _) (by omega) fun n hn => ?_
    simp only [Stage.remaining] at hn
    show n + 1 + _ ≤ s.longest + 4
    omega

theorem Sound.answerCreator (h : Sound s) (ho : Opened s) {i : ℕ} {worktree : ListedWorktree}
    {rest : List ListedWorktree} (hi : s.loops[i]? = some ⟨p, .creator worktree rest⟩)
    (hfree : s.held p = 0) (creator : Option ProtocolId) (reaction : List (StoreCall ν × Bool)) :
    Sound (advance (counted s p) i p (answerCreator host p worktree rest creator reaction)) := by
  refine h.works ho hi (Beside.counted s p) rfl le_rfl rfl hfree (answerCreator_proceeds _ _ _ _)
    (by omega) fun n hn => ?_
  simp only [Stage.remaining] at hn
  show n + 1 + _ ≤ s.longest + 4
  omega

/-! ## Calls -/

section

omit [Engine ν]

/-- Owing changes what is owed to one project, and nothing else. -/
theorem owe_cases (s : FolderReconciler ν) (p : ProtocolId) :
    ∃ owed : Table.Of ProtocolId ℕ, owe s p = { s with owed := owed } ∧
      ∀ q : ProtocolId, owed[q]? = if p = q then some ((s.owed[p]?).getD 0) else s.owed[q]? := by
  unfold owe
  rcases hp : s.owed[p]? with _ | n
  · exact ⟨_, rfl, fun q => Table.get_insert s.owed p q 0⟩
  · refine ⟨s.owed, rfl, fun q => ?_⟩
    split_ifs with hpq
    · rw [← hpq, hp]
      rfl
    · rfl

theorem Framed.asked (h : Framed s) (ho : Opened s) {owed : Table.Of ProtocolId ℕ}
    (howed : ∀ q : ProtocolId,
      owed[q]? = if p = q then some ((s.owed[p]?).getD 0) else s.owed[q]?) :
    Framed { s with owed := owed, again := insert p s.again } := by
  refine ⟨h.apart, h.running, h.counts, h.positive, h.fits, h.issued, ?_⟩
  intro q n hn hopen
  have hq : owed[q]? = some n := hn
  rw [howed] at hq
  split_ifs at hq with hpq
  · subst hpq
    rcases hm : s.owed[p]? with _ | m
    · rw [hm] at hq
      cases hq
      refine ⟨Finset.mem_insert_self p s.again, Nat.zero_le _, fun l hl _ => ?_⟩
      have hfit := h.fits l hl
      show 0 + l.stage.remaining s.longest ≤ s.longest + 4
      omega
    · rw [hm] at hq
      cases hq
      have hk := h.owed p _ hm (ho p (by rw [hm]; rfl))
      exact ⟨Finset.mem_insert_self p s.again, hk.soon, hk.within⟩
  · have hk := h.owed q n hq (ho q (by rw [hq]; rfl))
    exact ⟨Finset.mem_insert_of_mem hk.again, hk.soon, hk.within⟩

theorem Framed.asked_sound (h : Framed s) (ho : Opened s) (hother : ∀ q, q ≠ p → Underway s q)
    {owed : Table.Of ProtocolId ℕ} (howed : ∀ q : ProtocolId,
      owed[q]? = if p = q then some ((s.owed[p]?).getD 0) else s.owed[q]?)
    (hwhy : s.held p ≠ 0 ∨ p ∈ s.running) (hheard : Heard s p (s.held p)) :
    Sound { s with owed := owed, again := insert p s.again } := by
  refine ⟨h.asked ho howed, fun q hq hopen hzero => ?_⟩
  rcases eq_or_ne q p with rfl | hne
  · rcases hwhy with hheld | hrunning
    · exact absurd hzero hheld
    · obtain ⟨l, hl, hlq⟩ := List.mem_map.mp ((h.running q).mp hrunning)
      refine ⟨l, hl, hlq, fun hended => ?_⟩
      have hnot := hheard hopen hzero
      rw [FolderReconciler.ending, List.any_eq_false] at hnot
      exact hnot l hl (by simp [hlq, hended])
  · have hs : (owed[q]?).isSome = true := hq
    rw [howed, if_neg (Ne.symm hne)] at hs
    exact hother q hne hs hopen hzero

theorem beginPass_cases (s : FolderReconciler ν) (p : ProtocolId) :
    (beginPass s p = (s, .passed) ∧ s.isOpen p = false) ∨
      ∃ root, beginPass s p = ({ s with owed := s.owed.erase p }, .listing root) := by
  unfold beginPass FolderReconciler.isOpen
  rcases s.store.current.projects[p]? with _ | project
  · exact .inl ⟨rfl, rfl⟩
  · simp only [Option.any_some]
    split_ifs with hspace
    · exact .inl ⟨rfl, by rw [hspace]; rfl⟩
    · exact .inr ⟨_, rfl⟩

theorem Framed.started (h : Framed s) (ho : Opened s) (hother : ∀ q, q ≠ p → Underway s q)
    (hagain : t.again = s.again.erase p) (hsuspended : t.suspended = s.suspended)
    (hholds : t.holds = s.holds) (hissued : t.issued = s.issued) (hlongest : t.longest = s.longest)
    (howed : ∀ (q : ProtocolId) (n : ℕ), t.owed[q]? = some n → t.isOpen q = true →
      q ≠ p ∧ s.owed[q]? = some n)
    (hapart : (t.loops.map (·.projectId)).Nodup)
    (hrunning : ∀ q, q ∈ t.running ↔ q ∈ t.loops.map (·.projectId))
    (hloops : ∀ l ∈ t.loops, l ∈ s.loops ∨
      l.projectId = p ∧ l.stage.remaining s.longest ≤ s.longest + 4)
    (hkeeps : ∀ l ∈ s.loops, l.projectId ≠ p → l ∈ t.loops) : Sound t := by
  refine ⟨⟨hapart, hrunning, ?_, ?_, ?_, ?_, ?_⟩, ?_⟩
  · intro q
    rw [held_eq hholds, hsuspended]
    exact h.counts q
  · intro q
    rw [hsuspended]
    exact h.positive q
  · intro l hl
    rw [hlongest]
    rcases hloops l hl with hl | ⟨-, hfit⟩
    · exact h.fits l hl
    · exact hfit
  · rw [hissued]
    exact h.issued
  · intro q n hn hopen
    obtain ⟨hne, hs⟩ := howed q n hn hopen
    have hk := h.owed q n hs (ho q (by rw [hs]; rfl))
    refine ⟨hagain ▸ Finset.mem_erase.mpr ⟨hne, hk.again⟩, hlongest ▸ hk.soon, fun l hl hlq => ?_⟩
    rw [hlongest]
    rcases hloops l hl with hl | ⟨hlp, -⟩
    · exact hk.within l hl hlq
    · exact absurd (hlq.symm.trans hlp) hne
  · intro q hq hopen hzero
    obtain ⟨n, hn⟩ := Option.isSome_iff_exists.mp hq
    obtain ⟨hne, hs⟩ := howed q n hn hopen
    rw [held_eq hholds] at hzero
    have hsome : (s.owed[q]?).isSome = true := by rw [hs]; rfl
    obtain ⟨l, hl, hlq, hended⟩ := hother q hne hsome (ho q hsome) hzero
    exact ⟨l, hkeeps l hl (by rw [hlq]; exact hne), hlq, hended⟩

theorem Framed.fresh (h : Framed s) (hrun : p ∉ s.running) (stage : Stage) :
    ((s.loops ++ [(⟨p, stage⟩ : Loop)]).map (·.projectId)).Nodup ∧
      ∀ q, q ∈ insert p s.running ↔ q ∈ (s.loops ++ [(⟨p, stage⟩ : Loop)]).map (·.projectId) := by
  have hfresh : p ∉ s.loops.map (·.projectId) := fun hin => hrun ((h.running p).mpr hin)
  rw [List.map_append, List.map_singleton]
  constructor
  · refine List.nodup_append.mpr ⟨h.apart, List.nodup_singleton _, fun a ha b hb hab => ?_⟩
    rw [hab, List.mem_singleton.mp hb] at ha
    exact hfresh ha
  · intro q
    rw [Finset.mem_insert, List.mem_append, h.running q, List.mem_singleton, or_comm]

theorem reconcile_sound (h : Framed s) (ho : Opened s) (hother : ∀ q, q ≠ p → Underway s q)
    (hheard : Heard s p (s.held p)) : Sound (reconcile s p) := by
  obtain ⟨owed, howe, howed⟩ := owe_cases s p
  unfold reconcile
  rw [howe]
  dsimp only
  split_ifs with hheld hrun
  · refine h.asked_sound ho hother howed (.inl fun hzero => ?_) hheard
    rw [(h.suspended_iff p).mpr hzero] at hheld
    cases hheld
  · exact h.asked_sound ho hother howed (.inr hrun) hheard
  · have hnew : ∀ stage, Stage.remaining s.longest stage ≤ s.longest + 4 →
        ∀ l ∈ s.loops ++ [(⟨p, stage⟩ : Loop)], l ∈ s.loops ∨
          l.projectId = p ∧ l.stage.remaining s.longest ≤ s.longest + 4 := by
      intro stage hfit l hl
      rcases List.mem_append.mp hl with hl | hl
      · exact .inl hl
      · rw [List.mem_singleton.mp hl]
        exact .inr ⟨rfl, hfit⟩
    rcases beginPass_cases { s with owed := owed, again := s.again.erase p } p with
      ⟨hbegin, hclosed⟩ | ⟨root, hbegin⟩
    · rw [hbegin]
      obtain ⟨hapart, hin⟩ := h.fresh hrun .passed
      refine h.started (p := p) ho hother rfl rfl rfl rfl rfl (fun q n hn hopen => ?_) hapart hin
        (hnew .passed (by simp only [Stage.remaining]; omega)) fun l hl _ =>
          List.mem_append_left _ hl
      have hq : owed[q]? = some n := hn
      have hne : q ≠ p := by
        rintro rfl
        exact absurd (hclosed.symm.trans hopen) (by simp)
      rw [howed, if_neg (Ne.symm hne)] at hq
      exact ⟨hne, hq⟩
    · rw [hbegin]
      obtain ⟨hapart, hin⟩ := h.fresh hrun (.listing root)
      refine h.started (p := p) ho hother rfl rfl rfl rfl rfl (fun q n hn _ => ?_) hapart hin
        (hnew (.listing root) le_rfl) fun l hl _ => List.mem_append_left _ hl
      have hq : (owed.erase p)[q]? = some n := hn
      rw [Table.get_erase] at hq
      split_ifs at hq with hpq
      rw [howed, if_neg hpq] at hq
      exact ⟨Ne.symm hpq, hq⟩

theorem proceed_sound (h : Sound s) (ho : Opened s) {i : ℕ}
    (hi : s.loops[i]? = some ⟨p, .passed⟩) : Sound (proceed (counted s p) i p) := by
  have hmem : ∀ stage, ∀ l ∈ s.loops.set i ⟨p, stage⟩, l = ⟨p, stage⟩ ∨ l ∈ s.loops ∧ l.projectId ≠ p :=
    fun stage l hl => Lists.mem_set_key h.apart hi hl
  have hmap : ∀ stage, (s.loops.set i ⟨p, stage⟩).map (·.projectId) = s.loops.map (·.projectId) :=
    fun stage => Lists.map_set_key hi rfl
  have hkeeps : ∀ stage, ∀ l ∈ s.loops, l.projectId ≠ p → l ∈ s.loops.set i ⟨p, stage⟩ :=
    fun stage l hl hne => Lists.mem_set_of_key (f := fun l : Loop => l.projectId) hi hl hne
  unfold proceed
  split_ifs with hmore
  · have hnew : ∀ stage, Stage.remaining s.longest stage ≤ s.longest + 4 →
        ∀ l ∈ s.loops.set i ⟨p, stage⟩, l ∈ s.loops ∨
          l.projectId = p ∧ l.stage.remaining s.longest ≤ s.longest + 4 := by
      intro stage hfit l hl
      rcases hmem stage l hl with rfl | ⟨hl, -⟩
      · exact .inr ⟨rfl, hfit⟩
      · exact .inl hl
    rcases beginPass_cases { counted s p with again := s.again.erase p } p with
      ⟨hbegin, hclosed⟩ | ⟨root, hbegin⟩
    · rw [show (counted s p).again = s.again from rfl, hbegin]
      refine h.started (p := p) ho (fun q _ => h.underway q) rfl rfl rfl rfl rfl
        (fun q n hn hopen => ?_) ?_ (fun q => ?_) (hnew .passed (by simp only [Stage.remaining]; omega))
        (hkeeps .passed)
      · have hne : q ≠ p := by
          rintro rfl
          exact absurd (hclosed.symm.trans hopen) (by simp)
        have hq : (counted s p).owed[q]? = some n := hn
        rw [counted_owed, if_neg (Ne.symm hne)] at hq
        exact ⟨hne, hq⟩
      · exact (hmap .passed).symm ▸ h.apart
      · exact (hmap .passed).symm ▸ h.running q
    · rw [show (counted s p).again = s.again from rfl, hbegin]
      refine h.started (p := p) ho (fun q _ => h.underway q) rfl rfl rfl rfl rfl
        (fun q n hn _ => ?_) ?_ (fun q => ?_) (hnew (.listing root) le_rfl) (hkeeps (.listing root))
      · have hq : ((counted s p).owed.erase p)[q]? = some n := hn
        rw [Table.get_erase] at hq
        split_ifs at hq with hpq
        rw [counted_owed, if_neg hpq] at hq
        exact ⟨Ne.symm hpq, hq⟩
      · exact (hmap _).symm ▸ h.apart
      · exact (hmap _).symm ▸ h.running q
  · refine h.goesOn ho hi (.counted s p) rfl le_rfl h.issued (fun _ howed hzero => hmore ?_)
      fun n hn => ?_
    · obtain ⟨n, hn⟩ := Option.isSome_iff_exists.mp howed
      exact ⟨(h.owed p n hn (ho p howed)).again, (h.suspended_iff p).mpr hzero⟩
    · simp only [Stage.remaining] at hn ⊢
      show n + 1 + 1 ≤ s.longest + 4
      omega

theorem finish_sound (h : Sound s) (ho : Opened s) {i : ℕ} (hi : s.loops[i]? = some ⟨p, .ended⟩) :
    Sound { counted s p with loops := s.loops.eraseIdx i, running := s.running.erase p } := by
  have hgone : ∀ l ∈ s.loops.eraseIdx i, l ∈ s.loops ∧ l.projectId ≠ p := fun l hl =>
    ⟨List.mem_of_mem_eraseIdx hl, Lists.ne_of_mem_eraseIdx h.apart hi hl⟩
  have hkeeps : ∀ l ∈ s.loops, l.projectId ≠ p → l ∈ s.loops.eraseIdx i := fun l hl hne =>
    Lists.mem_eraseIdx_of_key (f := fun l : Loop => l.projectId) hi hl hne
  refine ⟨⟨?_, fun q => ?_, h.counts, h.positive, ?_, h.issued, ?_⟩, ?_⟩
  · exact h.apart.sublist ((List.eraseIdx_sublist s.loops i).map _)
  · show q ∈ s.running.erase p ↔ q ∈ (s.loops.eraseIdx i).map (·.projectId)
    rw [Finset.mem_erase, h.running q, List.mem_map, List.mem_map]
    constructor
    · rintro ⟨hne, l, hl, rfl⟩
      exact ⟨l, hkeeps l hl hne, rfl⟩
    · rintro ⟨l, hl, rfl⟩
      exact ⟨(hgone l hl).2, l, (hgone l hl).1, rfl⟩
  · exact fun l hl => h.fits l (hgone l hl).1
  · intro q n hn _
    have hq : (counted s p).owed[q]? = some n := hn
    rw [counted_owed] at hq
    split_ifs at hq with hpq
    · subst hpq
      obtain ⟨m, hm, rfl⟩ := Option.map_eq_some_iff.mp hq
      have hk := h.owed p m hm (ho p (by rw [hm]; rfl))
      have hlast := hk.within _ (List.mem_of_getElem? hi) rfl
      refine ⟨hk.again, hlast, fun l hl hlp => absurd hlp (hgone l hl).2⟩
    · have hk := h.owed q n hq (ho q (by rw [hq]; rfl))
      exact ⟨hk.again, hk.soon, fun l hl hlq => hk.within l (hgone l hl).1 hlq⟩
  · intro q hq _ hzero
    have hs : (s.owed[q]?).isSome = true := by
      rw [← counted_isSome s p q]
      exact hq
    obtain ⟨l, hl, hlq, hended⟩ := h.underway q hs (ho q hs) hzero
    rcases eq_or_ne q p with rfl | hne
    · have hsame := h.only hi hl hlq
      rw [hsame] at hended
      exact absurd rfl hended
    · exact ⟨l, hkeeps l hl (by rw [hlq]; exact hne), hlq, hended⟩

theorem Sound.beside (h : Sound s) (ho : Opened s) (hbeside : Beside s t) (howed : t.owed = s.owed)
    (hlongest : t.longest = s.longest) (hissued : t.issued = s.issued) : Sound t := by
  have hloops := hbeside.loops
  refine ⟨⟨?_, fun q => ?_, fun q => ?_, fun q => ?_, ?_, ?_, ?_⟩, ?_⟩
  · rw [hloops]
    exact h.apart
  · rw [hloops, hbeside.running]
    exact h.running q
  · rw [held_eq hbeside.holds, hbeside.suspended]
    exact h.counts q
  · rw [hbeside.suspended]
    exact h.positive q
  · rw [hloops, hlongest]
    exact h.fits
  · rw [hissued]
    exact h.issued
  · intro q n hn _
    rw [howed] at hn
    have hk := h.owed q n hn (ho q (by rw [hn]; rfl))
    refine ⟨hbeside.again ▸ hk.again, hlongest ▸ hk.soon, ?_⟩
    rw [hloops, hlongest]
    exact hk.within
  · intro q hq _ hzero
    rw [howed] at hq
    rw [held_eq hbeside.holds] at hzero
    rw [hloops]
    exact h.underway q hq (ho q hq) hzero

/-- Only the workspace, and the number of the last command. -/
def Aside (s t : FolderReconciler ν) : Prop :=
  ∃ store serial, t = { s with store := store, serial := serial }

theorem Aside.refl (s : FolderReconciler ν) : Aside s s := ⟨s.store, s.serial, rfl⟩

theorem Aside.trans (s t u : FolderReconciler ν) (h : Aside s t) (h' : Aside t u) : Aside s u := by
  obtain ⟨store, serial, rfl⟩ := h
  obtain ⟨store', serial', rfl⟩ := h'
  exact ⟨store', serial', rfl⟩

end

theorem apply_aside (command : Command ν) : Fallible.Along Aside (apply host command) := by
  intro s
  simp only [Fallible.Ends, apply]
  generalize Workspace.apply s.store _ _ _ = applied
  obtain ⟨store, result⟩ := applied
  cases result with
  | ok revision cursor event state => exact ⟨store, s.serial + 1, rfl⟩
  | refused conflict => exact ⟨store, s.serial + 1, rfl⟩
  | thrown message => exact ⟨store, s.serial + 1, rfl⟩

theorem relink_aside (repositoryId fromPath toPath : Str) :
    Fallible.Along Aside (relink (apply host) p repositoryId fromPath toPath) := by
  refine (Fallible.Along.get Aside.refl).bind Aside.trans fun s => ?_
  split
  · exact .pure Aside.refl false
  · exact (apply_aside _).bind Aside.trans fun applied => .pure Aside.refl _

/-! ## Suspensions -/

section

omit [Engine ν]

theorem suspend_held (s : FolderReconciler ν) (p q : ProtocolId) :
    (suspend s p).held q = if p = q then s.held q + 1 else s.held q := by
  simp only [FolderReconciler.held, suspend, List.countP_append, List.countP_singleton]
  split_ifs with h1 h2 h2
  · rfl
  · simp [h2] at h1
  · simp [h2] at h1
  · rfl

theorem suspend_sound (h : Sound s) : Sound (suspend s p) := by
  refine ⟨⟨h.apart, h.running, fun q => ?_, fun q => ?_, h.fits, h.issued, ?_⟩, ?_⟩
  · rw [suspend_held]
    show ((s.suspended.insert p _)[q]?).getD 0 = _
    rw [Table.get_insert]
    split_ifs with hpq
    · rw [← hpq, Option.getD_some, h.counts p]
    · exact h.counts q
  · show (s.suspended.insert p _)[q]? ≠ some 0
    rw [Table.get_insert]
    split_ifs
    · simp
    · exact h.positive q
  · intro q n hn hopen
    have hk := h.owed q n hn hopen
    exact ⟨hk.again, hk.soon, hk.within⟩
  · intro q hq hopen hzero
    rw [suspend_held] at hzero
    split_ifs at hzero
    exact h.underway q hq hopen hzero

theorem release_sound (h : Sound s) (hfree : s.held p = 0)
    (hunasked : s.isOpen p = true → p ∉ s.again) : Sound (release s p) := by
  have hnone := (h.suspended_iff p).mpr hfree
  have hsame : ∀ q : ProtocolId, (s.suspended.erase p)[q]? = s.suspended[q]? := by
    intro q
    rw [Table.get_erase]
    split_ifs with hpq
    · rw [← hpq, hnone]
    · rfl
  refine ⟨⟨h.apart, h.running, fun q => ?_, fun q => ?_, h.fits, h.issued, ?_⟩, h.underway⟩
  · show ((s.suspended.erase p)[q]?).getD 0 = s.held q
    rw [hsame]
    exact h.counts q
  · show (s.suspended.erase p)[q]? ≠ some 0
    rw [hsame]
    exact h.positive q
  · intro q n hn hopen
    have hk := h.owed q n hn hopen
    refine ⟨Finset.mem_erase.mpr ⟨?_, hk.again⟩, hk.soon, hk.within⟩
    rintro rfl
    exact hunasked hopen hk.again

theorem resumed_held {i : ℕ} (hi : s.holds[i]? = some ⟨p, false⟩) (q : ProtocolId) :
    0 < s.held p ∧ ({ s with holds := s.holds.set i ⟨p, true⟩ } : FolderReconciler ν).held q =
      if p = q then s.held q - 1 else s.held q := by
  obtain ⟨hlt, hget⟩ := List.getElem?_eq_some_iff.mp hi
  constructor
  · rw [FolderReconciler.held, List.countP_pos_iff]
    exact ⟨_, List.mem_of_getElem? hi, by simp⟩
  · simp only [FolderReconciler.held]
    rw [List.countP_set hlt, hget]
    by_cases hpq : p = q
    · simp [hpq]
    · simp [hpq]

theorem resume_sound (h : Sound s) (ho : Opened s) (i : ℕ)
    (hheard : ∀ hold ∈ s.holds[i]?, hold.resumed = false → hold.projectId ∈ s.again →
      Heard s hold.projectId (s.held hold.projectId - 1)) : Sound (resume s i) := by
  unfold resume
  split
  · exact h
  · exact h
  · rename_i p hi
    have hpositive := (resumed_held hi p).1
    have hheld := fun q => (resumed_held hi q).2
    have hcount : s.suspended[p]? = some (s.held p) := by
      have hc := h.counts p
      rcases hs : s.suspended[p]? with _ | n
      · rw [hs] at hc
        simp only [Option.getD_none] at hc
        omega
      · rw [hs, Option.getD_some] at hc
        rw [hc]
    have hrest : ∀ suspended : Table.Of ProtocolId ℕ,
        (∀ q : ProtocolId, suspended[q]? = if p = q then
          (if 0 < s.held p - 1 then some (s.held p - 1) else none) else s.suspended[q]?) →
        Framed { s with holds := s.holds.set i ⟨p, true⟩, suspended := suspended } := by
      intro suspended hsuspended
      refine ⟨h.apart, h.running, fun q => ?_, fun q => ?_, h.fits, h.issued, ?_⟩
      · show (suspended[q]?).getD 0 =
          ({ s with holds := s.holds.set i ⟨p, true⟩ } : FolderReconciler ν).held q
        rw [hheld, hsuspended]
        by_cases hpq : p = q
        · rw [if_pos hpq, if_pos hpq, ← hpq]
          split_ifs with hmore
          · rfl
          · simp only [Option.getD_none]
            omega
        · rw [if_neg hpq, if_neg hpq]
          exact h.counts q
      · show suspended[q]? ≠ some 0
        rw [hsuspended]
        split_ifs with hpq hmore
        · rw [ne_eq, Option.some.injEq]
          omega
        · nofun
        · exact h.positive q
      · intro q n hn hopen
        have hk := h.owed q n hn hopen
        exact ⟨hk.again, hk.soon, hk.within⟩
    have hother : ∀ (suspended : Table.Of ProtocolId ℕ) (q : ProtocolId), q ≠ p →
        Underway { s with holds := s.holds.set i ⟨p, true⟩, suspended := suspended } q := by
      intro suspended q hne hq hopen hzero
      have hzero' : ({ s with holds := s.holds.set i ⟨p, true⟩ } : FolderReconciler ν).held q = 0 :=
        hzero
      rw [hheld, if_neg (Ne.symm hne)] at hzero'
      exact h.underway q hq hopen hzero'
    simp only [hcount, Option.getD_some]
    split_ifs with hmore hagain
    · refine ⟨hrest _ fun q => by rw [Table.get_insert, if_pos hmore], fun q => ?_⟩
      rcases eq_or_ne q p with rfl | hne
      · intro _ _ hzero
        have hzero' : ({ s with holds := s.holds.set i ⟨q, true⟩ } : FolderReconciler ν).held q = 0 :=
          hzero
        rw [hheld, if_pos rfl] at hzero'
        omega
      · exact hother _ q hne
    · refine reconcile_sound (hrest _ fun q => by rw [Table.get_erase, if_neg hmore]) ho
        (hother _) fun hopen hzero => ?_
      have hzero' : ({ s with holds := s.holds.set i ⟨p, true⟩ } : FolderReconciler ν).held p = 0 :=
        hzero
      rw [hheld, if_pos rfl] at hzero'
      exact hheard _ hi rfl hagain hopen hzero'
    · refine ⟨hrest _ fun q => by rw [Table.get_erase, if_neg hmore], fun q => ?_⟩
      rcases eq_or_ne q p with rfl | hne
      · intro hq hopen _
        obtain ⟨n, hn⟩ := Option.isSome_iff_exists.mp hq
        exact absurd (h.owed q n hn (ho q hq)).again hagain
      · exact hother _ q hne

end

/-! ## Runs -/

theorem happens_sound (h : Sound s) (ho : Opened s) (moment : Moment ν) (hsteady : Steady s moment) :
    Sound (moment.happens host s) := by
  cases moment with
  | reconcile p => exact reconcile_sound h.toFramed ho (fun q _ => h.underway q) hsteady
  | gitChange p worktreeId =>
    have hcall := reconcile_sound h.toFramed ho (fun q _ => h.underway q) hsteady
    simp only [Moment.happens, onGitChange]
    split
    · split_ifs
      · exact h
      · exact hcall
    · exact hcall
  | suspend p => exact suspend_sound h
  | resume hold => exact resume_sound h ho hold hsteady
  | relink p repositoryId fromPath toPath =>
    have haside : Aside s (relink (apply host) p repositoryId fromPath toPath s).2 :=
      (relink_aside repositoryId fromPath toPath s).state
    obtain ⟨store, serial, hrelink⟩ := haside
    simp only [Moment.happens]
    rw [hrelink]
    exact h.beside ho ⟨rfl, rfl, rfl, rfl, rfl⟩ rfl rfl rfl
  | release p => exact release_sound h hsteady.1 hsteady.2
  | listing loop answer =>
    simp only [Moment.happens]
    split
    · rename_i p path hi
      refine h.answerListing ho hi fun listing hanswer hnone => ?_
      subst hanswer
      exact hsteady hnone _ hi
    · exact h
  | root loop answer =>
    simp only [Moment.happens]
    split
    · rename_i p path listing hi
      refine h.answerRoot ho hi fun root hanswer => ?_
      subst hanswer
      exact hsteady _ hi
    · exact h
  | creator loop answer reaction =>
    simp only [Moment.happens]
    split
    · rename_i p worktree rest hi
      exact h.answerCreator ho hi (hsteady _ hi) answer reaction
    · exact h
  | proceed loop =>
    simp only [Moment.happens]
    split
    · rename_i p hi
      exact proceed_sound h ho hi
    · exact h
  | finish loop =>
    simp only [Moment.happens]
    split
    · rename_i p hi
      exact finish_sound h ho hi
    · exact h
  | workspace call written => exact h.beside ho ⟨rfl, rfl, rfl, rfl, rfl⟩ rfl rfl rfl

theorem step_sound (hs : Sound s ∧ Opened s) (moment : Moment ν) (hsteady : Steady s moment) :
    Sound (step host s moment) ∧ Opened (step host s moment) := by
  have h : Sound (moment.happens host s) := happens_sound hs.1 hs.2 moment hsteady
  unfold step
  generalize moment.happens host s = t at h
  have hselect : ∀ q : ProtocolId,
      (Table.select (fun projectId _ => t.isOpen projectId) t.owed)[q]? =
        (t.owed[q]?).filter fun _ => t.isOpen q := fun q => Table.get_select _ _ q
  have hkeep : ∀ (q : ProtocolId) (n : ℕ),
      (Table.select (fun projectId _ => t.isOpen projectId) t.owed)[q]? = some n →
        t.owed[q]? = some n ∧ t.isOpen q = true := by
    intro q n hn
    rw [hselect, Option.filter_eq_some_iff] at hn
    exact hn
  refine ⟨⟨⟨h.apart, h.running, h.counts, h.positive, h.fits, h.issued, ?_⟩, ?_⟩, ?_⟩
  · intro q n hn hopen
    have hk := h.owed q n (hkeep q n hn).1 hopen
    exact ⟨hk.again, hk.soon, hk.within⟩
  · intro q hq hopen hzero
    obtain ⟨n, hn⟩ := Option.isSome_iff_exists.mp hq
    refine h.underway q ?_ hopen hzero
    rw [(hkeep q n hn).1]
    rfl
  · intro q hq
    obtain ⟨n, hn⟩ := Option.isSome_iff_exists.mp hq
    exact (hkeep q n hn).2

omit [Engine ν] in
theorem new_sound (store : WorkspaceStore ν) :
    Sound (FolderReconciler.new store) ∧ Opened (FolderReconciler.new store) := by
  have hnone : ∀ q : ProtocolId, (∅ : Table.Of ProtocolId ℕ)[q]? = none :=
    fun q => Std.ExtTreeMap.getElem?_empty
  refine ⟨⟨⟨List.nodup_nil, fun q => ?_, fun q => ?_, fun q => ?_, nofun, nofun, fun q n hn => ?_⟩,
    fun q hq => ?_⟩, fun q hq => ?_⟩
  · simp [FolderReconciler.new]
  · show ((∅ : Table.Of ProtocolId ℕ)[q]?).getD 0 = 0
    rw [hnone]
    rfl
  · show (∅ : Table.Of ProtocolId ℕ)[q]? ≠ some 0
    rw [hnone]
    nofun
  · have hn' : (∅ : Table.Of ProtocolId ℕ)[q]? = some n := hn
    rw [hnone] at hn'
    cases hn'
  · have hq' : ((∅ : Table.Of ProtocolId ℕ)[q]?).isSome = true := hq
    rw [hnone] at hq'
    cases hq'
  · have hq' : ((∅ : Table.Of ProtocolId ℕ)[q]?).isSome = true := hq
    rw [hnone] at hq'
    cases hq'

omit [Engine ν] in
theorem Sound.keeps (h : Sound s) (ho : Opened s) : Keeps s := by
  refine ⟨h.apart, fun e he => (h.issued e he).1, fun e he => (h.issued e he).2, fun q n hn => ?_⟩
  have hq : (s.owed[q]?).isSome = true := by
    rw [hn]
    rfl
  exact ⟨(h.owed q n hn (ho q hq)).soon, h.underway q hq (ho q hq)⟩

/-- In a run of steady moments nothing overlaps, no pass acts on a suspended project or closes a
panel, and every call for an open project is followed by a read of its listing. -/
theorem reconciler_runs (host : Host ν) (store : WorkspaceStore ν) (moments : List (Moment ν))
    (h : Runs.Meets (step host) Steady (FolderReconciler.new store) moments) :
    Keeps (Runs.after (step host) (FolderReconciler.new store) moments) := by
  have hrun : Sound (Runs.after (step host) (FolderReconciler.new store) moments) ∧
      Opened (Runs.after (step host) (FolderReconciler.new store) moments) :=
    Runs.invariant_of_meets (I := fun s => Sound s ∧ Opened s)
      (fun s moment hs hsteady => step_sound hs moment hsteady) (new_sound store) h
  exact hrun.1.keeps hrun.2

end Engine

/-! ## A worktree moved while a pass reads -/

def workHost : Host ℤ := ⟨fun _ => 0, fun _ => true⟩

def bound : FolderReconciler ℤ :=
  .new (runCalls (newStore (initialWorkspace (js "srv")) 10 8388608)
    [(.apply ⟨js "c1", none, ⟨js "project.create", Table.ofEntries
      [(js "projectId", .str (js "p")), (js "viewId", .str (js "srv:view:default")),
        (js "root", .str (js "/work/main")), (js "name", .str (js "Main"))]⟩⟩ 0, true)])

def checkouts (paths : List String) : Option ReconcilerWorktreeListing :=
  some ⟨js "ready", paths.map fun path => ⟨none, js "repo", js path, none, false, false⟩⟩

def mainRoot : Option (Option Str) := some (some (js "/work/main"))

def firstPass : List (Moment ℤ) :=
  [.reconcile (js "p"), .listing 0 (checkouts ["/work/main", "/work/a"]), .root 0 mainRoot,
    .proceed 0, .finish 0]

/-- The worktree is moved under a suspension and its folder relinked; the change that was seen
meanwhile is read once the suspension is over. -/
def movedBetweenPasses : List (Moment ℤ) :=
  firstPass ++ [.suspend (js "p"), .gitChange (js "p") none,
    .relink (js "p") (js "repo") (js "/work/a") (js "/work/b"), .resume 0,
    .listing 0 (checkouts ["/work/main", "/work/b"]), .root 0 mainRoot, .proceed 0, .finish 0]

theorem reconciler_runs_moved : Keeps (Runs.after (step workHost) bound movedBetweenPasses) :=
  reconciler_runs workHost _ movedBetweenPasses (by decide +kernel)

/-- The suspension begins while a second pass waits for its listing, and the half-finished move
takes the folder away. -/
def movedDuringPass : List (Moment ℤ) :=
  firstPass ++ [.reconcile (js "p"), .suspend (js "p"), .listing 0 (checkouts ["/work/main"]),
    .root 0 mainRoot]

theorem folder_removed_suspended :
    ¬ Keeps (Runs.after (step workHost) bound movedDuringPass) := by
  have hheld : (Runs.after (step workHost) bound movedDuringPass).issued.map (·.held) = [0, 1] := by
    decide +kernel
  intro h
  have hone : 1 ∈ (Runs.after (step workHost) bound movedDuringPass).issued.map (·.held) := by
    rw [hheld]
    decide
  obtain ⟨e, he, hone⟩ := List.mem_map.mp hone
  exact absurd ((h.quiet e he).symm.trans hone) (by decide)

end Terminay.Folders
