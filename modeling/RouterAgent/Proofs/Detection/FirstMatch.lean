import Mathlib.Data.Nat.Find
import RouterAgent.Detection
import RouterAgent.Proofs.Host.Commands

/-!
Detection finds the platform of the first check that holds.

Several checks run the same command, which may answer differently each time. So what a check is told
depends on the checks before it, but only through the number of calls of its command. This makes the
replies a function of the host and of the row of accesses, and detection a search for the first
reply that is accepted.
-/

namespace RouterAgent

def CommandResult.shown : CommandResult → List Char
  | .ran output _ _ => (output.getD "").toList
  | .refused _ | .timedOut => []

namespace Detection

/-! ### Replies of a host -/

/-- What an access to the host gives: a text, or whether something is there. -/
inductive Reply where
  | text (cs : List Char)
  | presence (b : Bool)
deriving DecidableEq

/-- The reply of a host to an access that was made so many times before. A file that cannot be read
counts as empty. -/
def reply (h : Host) (n : Nat) : Action → Reply
  | .ran line => .text (h.answer line n).shown
  | .askedFor path => .presence (h.holds path)
  | .askedForDir path => .presence (h.isDir path)
  | .opened path => .text ((h.readText path).toOption.getD [])
  | _ => .presence false

def replies (h : Host) (asked : List Action) : List Reply :=
  asked.mapIdx fun i access => reply h ((asked.take i).count access) access

lemma getElem?_replies (h : Host) (asked : List Action) (i : Nat) :
    (replies h asked)[i]? =
      asked[i]?.map fun access => reply h ((asked.take i).count access) access :=
  List.getElem?_mapIdx

lemma replies_take (h : Host) (asked : List Action) (n : Nat) :
    replies h (asked.take n) = (replies h asked).take n := by
  refine List.ext_getElem? fun i => ?_
  rw [getElem?_replies, List.getElem?_take, List.getElem?_take, getElem?_replies]
  by_cases hi : i < n
  · rw [if_pos hi, if_pos hi, List.take_take, Nat.min_eq_left (Nat.le_of_lt hi)]
  · rw [if_neg hi, if_neg hi, Option.map_none]

lemma replies_cons {h later : Host} {access : Action} (hlater : ∀ n other, reply later n other =
    reply h (if other = access then n + 1 else n) other) (asked : List Action) :
    replies h (access :: asked) = reply h 0 access :: replies later asked := by
  refine List.ext_getElem? fun i => ?_
  cases i with
  | zero => simp [getElem?_replies]
  | succ i =>
    simp only [getElem?_replies, List.getElem?_cons_succ, List.take_succ_cons, List.count_cons,
      beq_iff_eq, hlater, eq_comm (a := access)]
    refine Option.map_congr fun other _ => ?_
    split <;> rfl

/-! ### Checks -/

def Check.access : Check → Action
  | kernel flag _ => .ran s!"uname {flag}"
  | file path => .askedFor path
  | dir path => .askedForDir path
  | content path _ => .opened path

def Check.Accepts : Check → Reply → Prop
  | kernel _ word, .text cs | content _ word, .text cs => word.toList <+: cs
  | file _, .presence b | dir _, .presence b => b = true
  | _, _ => False

instance (c : Check) (r : Reply) : Decidable (c.Accepts r) := by
  unfold Check.Accepts
  split <;> infer_instance

/-- The accesses that a table of checks makes if it is gone through to its end. -/
def accesses (cs : List (Check × String)) : List Action := cs.map fun c => c.1.access

/-- The check at a place of a table holds: it accepts the reply that it gets there. -/
def HoldsAt (h : Host) (cs : List (Check × String)) (i : Nat) : Prop :=
  ∃ c ∈ cs[i]?, ∃ r ∈ (replies h (accesses cs))[i]?, c.1.Accepts r

instance (h : Host) (cs : List (Check × String)) (i : Nat) : Decidable (HoldsAt h cs i) := by
  unfold HoldsAt
  infer_instance

lemma HoldsAt.lt_length {h : Host} {cs : List (Check × String)} {i : Nat} (hi : HoldsAt h cs i) :
    i < cs.length := by
  obtain ⟨c, hget, -⟩ := hi
  exact (List.getElem?_eq_some_iff.1 hget).1

/-! ### One check -/

lemma reply_run (w : World) (line : String) (n : Nat) (access : Action) :
    reply (w.run line).2.host n access =
      reply w.host (if access = .ran line then n + 1 else n) access := by
  obtain ⟨-, -, hanswer, commands, rival, hhost⟩ := w.run_spec line
  cases access with
  | ran other => simp only [reply, hanswer, Action.ran.injEq]
  | _ => rw [hhost]; rfl

lemma kernel_spec (w : World) (flag : String) :
    (kernel w flag).1.toList = (w.host.answer s!"uname {flag}" 0).shown ∧
    (kernel w flag).2.trace = w.trace ++ [.ran s!"uname {flag}"] ∧
    (kernel w flag).2.host = (w.run s!"uname {flag}").2.host := by
  obtain ⟨hresult, htrace, -⟩ := w.run_spec s!"uname {flag}"
  rw [← hresult, ← htrace]
  unfold kernel
  split
  · next hrun => rw [hrun]; exact ⟨rfl, rfl, rfl⟩
  · next hrun => rw [hrun]; exact ⟨rfl, rfl, rfl⟩
  · next hrun => rw [hrun]; exact ⟨rfl, rfl, rfl⟩

lemma content_spec (w : World) (path : String) :
    (content w path).1 = (w.host.readText path).toOption.getD [] ∧
    (content w path).2.trace = w.trace ++ [.opened path] ∧
    (content w path).2.host = w.host := by
  unfold content
  simp only [World.did]
  split
  · next hread => rw [hread]; exact ⟨rfl, rfl, rfl⟩
  · next hread => rw [hread]; exact ⟨rfl, rfl, rfl⟩

lemma reply_of_ne_ran {access : Action} (h : ∀ line, access ≠ .ran line) (host : Host) (m n : Nat) :
    reply host m access = reply host n access := by
  cases access with
  | ran line => exact absurd rfl (h line)
  | _ => rfl

/-- **Making a check** is making its access and looking whether the reply is accepted. All that it
changes for later accesses is that its own one was made once more. -/
theorem Check.holds_spec (w : World) (c : Check) :
    ((c.holds w).1 = true ↔ c.Accepts (reply w.host 0 c.access)) ∧
    (c.holds w).2.trace = w.trace ++ [c.access] ∧
    ∀ n access, reply (c.holds w).2.host n access =
      reply w.host (if access = c.access then n + 1 else n) access := by
  -- what asks for no command leaves the host as it is
  have hsame {world : World} (hhost : world.host = w.host) (hran : ∀ line, c.access ≠ .ran line)
      (n : Nat) (access : Action) : reply world.host n access =
        reply w.host (if access = c.access then n + 1 else n) access := by
    rw [hhost]
    split
    · next heq => exact reply_of_ne_ran (by rw [heq]; exact hran) w.host n (n + 1)
    · rfl
  cases c with
  | kernel flag word =>
    obtain ⟨htext, htrace, hhost⟩ := kernel_spec w flag
    refine ⟨?_, htrace, fun n access => ?_⟩
    · simp only [holds, htext, List.isPrefixOf_iff_prefix]
      rfl
    · simp only [holds, hhost]
      exact reply_run w _ n access
  | file path => exact ⟨Iff.rfl, rfl, hsame rfl fun _ => Action.noConfusion⟩
  | dir path => exact ⟨Iff.rfl, rfl, hsame rfl fun _ => Action.noConfusion⟩
  | content path word =>
    obtain ⟨htext, htrace, hhost⟩ := content_spec w path
    refine ⟨?_, htrace, hsame hhost fun _ => Action.noConfusion⟩
    simp only [holds, htext, List.isPrefixOf_iff_prefix]
    rfl

/-! ### A table of checks -/

lemma replies_accesses_cons (w : World) (c : Check × String) (cs : List (Check × String)) :
    replies w.host (accesses (c :: cs)) =
      reply w.host 0 c.1.access :: replies (c.1.holds w).2.host (accesses cs) := by
  obtain ⟨-, -, hlater⟩ := c.1.holds_spec w
  exact replies_cons hlater (accesses cs)

lemma holdsAt_zero (w : World) (c : Check × String) (cs : List (Check × String)) :
    HoldsAt w.host (c :: cs) 0 ↔ (c.1.holds w).1 = true := by
  obtain ⟨hholds, -, -⟩ := c.1.holds_spec w
  simp [HoldsAt, replies_accesses_cons, hholds]

lemma holdsAt_succ (w : World) (c : Check × String) (cs : List (Check × String)) (i : Nat) :
    HoldsAt w.host (c :: cs) (i + 1) ↔ HoldsAt (c.1.holds w).2.host cs i := by
  simp only [HoldsAt, replies_accesses_cons, List.getElem?_cons_succ]

lemma first_cons (w : World) (c : Check × String) (cs : List (Check × String)) :
    first w (c :: cs) =
      if (c.1.holds w).1 then (some c.2, (c.1.holds w).2) else first (c.1.holds w).2 cs := by
  rw [first]
  rcases c.1.holds w with ⟨_ | _, _⟩ <;> rfl

theorem first_of_holdsAt {w : World} {cs : List (Check × String)} {i : Nat}
    {c : Check × String} (hget : cs[i]? = some c) (hholds : HoldsAt w.host cs i)
    (hbefore : ∀ j < i, ¬HoldsAt w.host cs j) :
    (first w cs).1 = some c.2 ∧
    (first w cs).2.trace = w.trace ++ accesses (cs.take (i + 1)) := by
  induction cs generalizing w i with
  | nil => simp at hget
  | cons d cs ih =>
    obtain ⟨-, htrace, -⟩ := d.1.holds_spec w
    rw [first_cons]
    cases i with
    | zero =>
      rw [holdsAt_zero] at hholds
      obtain rfl : d = c := by simpa using hget
      rw [if_pos hholds]
      exact ⟨rfl, htrace⟩
    | succ i =>
      have hfirst := hbefore 0 i.succ_pos
      rw [holdsAt_zero] at hfirst
      rw [holdsAt_succ] at hholds
      obtain ⟨hresult, hlater⟩ := ih hget hholds fun j hj => by
        rw [← holdsAt_succ]
        exact hbefore (j + 1) (Nat.succ_lt_succ hj)
      rw [if_neg hfirst]
      refine ⟨hresult, ?_⟩
      rw [hlater, htrace, List.append_assoc]
      rfl

theorem first_of_forall_not {w : World} {cs : List (Check × String)}
    (hnone : ∀ i, ¬HoldsAt w.host cs i) :
    (first w cs).1 = none ∧ (first w cs).2.trace = w.trace ++ accesses cs := by
  induction cs generalizing w with
  | nil => exact ⟨rfl, (List.append_nil _).symm⟩
  | cons d cs ih =>
    obtain ⟨-, htrace, -⟩ := d.1.holds_spec w
    have hfirst := hnone 0
    rw [holdsAt_zero] at hfirst
    obtain ⟨hresult, hlater⟩ := ih fun i => by
      rw [← holdsAt_succ]
      exact hnone (i + 1)
    rw [first_cons, if_neg hfirst]
    refine ⟨hresult, ?_⟩
    rw [hlater, htrace, List.append_assoc]
    rfl

lemma holdsAt_iff_of_replies {g h : Host} {cs : List (Check × String)} {n i : Nat} (hi : i < n)
    (hsame : replies g (accesses (cs.take n)) = replies h (accesses (cs.take n))) :
    HoldsAt g cs i ↔ HoldsAt h cs i := by
  have hreply : (replies g (accesses cs))[i]? = (replies h (accesses cs))[i]? := by
    rw [accesses, List.map_take, ← accesses, replies_take, replies_take] at hsame
    rw [← List.getElem?_take_of_lt hi, hsame, List.getElem?_take_of_lt hi]
  simp only [HoldsAt, hreply]

lemma exists_first_holdsAt {h : Host} {cs : List (Check × String)} {i : Nat}
    (hholds : HoldsAt h cs i) :
    ∃ k c, cs[k]? = some c ∧ HoldsAt h cs k ∧ ∀ j < k, ¬HoldsAt h cs j := by
  classical
  have hsome : ∃ k, HoldsAt h cs k := ⟨i, hholds⟩
  obtain ⟨c, hget, -⟩ := Nat.find_spec hsome
  exact ⟨Nat.find hsome, c, hget, Nat.find_spec hsome, fun j hj => Nat.find_min hsome hj⟩

/-! ### The platform of the host -/

lemma detect_spec (w : World) :
    w.detect.1 = (first w checks).1.getD unknownPlatform ∧
    w.detect.2.trace = (first w checks).2.trace := by
  unfold World.detect
  split
  · next hfirst => rw [hfirst]; exact ⟨rfl, rfl⟩
  · next hfirst => rw [hfirst]; exact ⟨rfl, rfl⟩

lemma detect_of_holdsAt {w : World} {i : Nat} {c : Check × String} (hget : checks[i]? = some c)
    (hholds : HoldsAt w.host checks i) (hbefore : ∀ j < i, ¬HoldsAt w.host checks j) :
    w.detect.1 = c.2 ∧ w.detect.2.trace = w.trace ++ accesses (checks.take (i + 1)) := by
  obtain ⟨hresult, htrace⟩ := first_of_holdsAt hget hholds hbefore
  rw [(detect_spec w).1, (detect_spec w).2, hresult, htrace]
  exact ⟨rfl, rfl⟩

lemma detect_of_forall_not {w : World} (hnone : ∀ i, ¬HoldsAt w.host checks i) :
    w.detect.1 = unknownPlatform ∧ w.detect.2.trace = w.trace ++ accesses checks := by
  obtain ⟨hresult, htrace⟩ := first_of_forall_not hnone
  rw [(detect_spec w).1, (detect_spec w).2, hresult, htrace]
  exact ⟨rfl, rfl⟩

/-- **Detection finds the platform of the first check that holds.** On every host it comes to an
answer: the platform of the first check of the table that accepts its reply, or no platform. It
makes the accesses of the checks up to that one, in order, and no others. So two hosts that give the
same replies to the accesses made on one of them are taken for the same platform, whatever else is
on them. -/
theorem detect_is_first_match (w : World) :
    (∀ i check platform, checks[i]? = some (check, platform) → HoldsAt w.host checks i →
      (∀ j < i, ¬HoldsAt w.host checks j) →
      w.detect.1 = platform ∧
      w.detect.2.trace = w.trace ++ accesses (checks.take (i + 1))) ∧
    ((∀ i, ¬HoldsAt w.host checks i) →
      w.detect.1 = unknownPlatform ∧ w.detect.2.trace = w.trace ++ accesses checks) ∧
    ∀ (v : World) asked, w.detect.2.trace = w.trace ++ asked →
      replies v.host asked = replies w.host asked →
      v.detect.1 = w.detect.1 ∧ v.detect.2.trace = v.trace ++ asked := by
  refine ⟨fun i check platform => detect_of_holdsAt, detect_of_forall_not,
    fun v asked hasked hsame => ?_⟩
  by_cases hsome : ∃ i, HoldsAt w.host checks i
  · obtain ⟨i, hholds⟩ := hsome
    obtain ⟨k, c, hget, hk, hbefore⟩ := exists_first_holdsAt hholds
    obtain ⟨hresult, htrace⟩ := detect_of_holdsAt hget hk hbefore
    obtain rfl : asked = accesses (checks.take (k + 1)) :=
      List.append_cancel_left (hasked.symm.trans htrace)
    have halike {j : Nat} (hj : j < k + 1) : HoldsAt v.host checks j ↔ HoldsAt w.host checks j :=
      holdsAt_iff_of_replies hj hsame
    rw [hresult]
    exact detect_of_holdsAt hget ((halike k.lt_succ_self).2 hk) fun j hj hv =>
      hbefore j hj ((halike (Nat.lt_succ_of_lt hj)).1 hv)
  · have hno : ∀ i, ¬HoldsAt w.host checks i := not_exists.1 hsome
    obtain ⟨hresult, htrace⟩ := detect_of_forall_not hno
    obtain rfl : asked = accesses checks := List.append_cancel_left (hasked.symm.trans htrace)
    rw [hresult]
    exact detect_of_forall_not fun i hv => hno i (by simpa only [HoldsAt, hsame] using hv)

/-- A host whose kernel says nothing at first and a platform at the third time, in a command that
fails. -/
def lateAnswer : Host :=
  { Host.empty with
    dirs := [["config".toList, "scripts".toList, "post-config.d".toList]]
    commands := .ofList
      [("uname -o", [.timedOut, .ran none none 0, .ran (some "Tomato") (some "uname: -o") 1]),
       ("uname -u", [.refused .denied])] }

theorem detect_is_first_match_lateAnswer :
    HoldsAt lateAnswer checks 5 ∧ (∀ j < 5, ¬HoldsAt lateAnswer checks j) ∧
    (World.start lateAnswer).detect.1 = "tomato" ∧
    (World.start { lateAnswer with dirs := [] }).detect.1 = "tomato" ∧
    (World.start .empty).detect.1 = unknownPlatform := by
  have hholds : HoldsAt lateAnswer checks 5 := by decide +kernel
  have hbefore : ∀ j < 5, ¬HoldsAt lateAnswer checks j := by decide +kernel
  have hsame : replies { lateAnswer with dirs := [] } (accesses (checks.take 6)) =
      replies lateAnswer (accesses (checks.take 6)) := by decide +kernel
  have hempty : ∀ i < checks.length, ¬HoldsAt .empty checks i := by decide +kernel
  obtain ⟨hmatch, -, halike⟩ := detect_is_first_match (.start lateAnswer)
  obtain ⟨-, hnone, -⟩ := detect_is_first_match (.start .empty)
  obtain ⟨hresult, htrace⟩ := hmatch 5 (.kernel "-o" "Tomato") "tomato" rfl hholds hbefore
  obtain ⟨hother, -⟩ := halike (.start { lateAnswer with dirs := [] }) _ htrace hsame
  obtain ⟨hunknown, -⟩ := hnone fun i hi => hempty i hi.lt_length hi
  exact ⟨hholds, hbefore, hresult, hother.trans hresult, hunknown⟩

end Detection

end RouterAgent
