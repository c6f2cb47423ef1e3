import EntitySearch.RequestToken
import Mathlib.Algebra.Group.Nat.Defs
import Mathlib.Data.List.Nodup
import Mathlib.Logic.Relation

/-!
# Requests of several tasks

Tasks share a source of tokens and are issued tokens in any order. As long as the numbers do not run
out, no token is issued twice and exactly the token issued last is current.
-/

namespace EntitySearch

/-- A source of tokens that tasks share, with what it has issued so far. -/
structure SharedSource (Task : Type) where
  tokens : RequestTokens
  /-- The tokens issued so far, first to last, each with the task that it went to. -/
  issued : List (Task × RequestToken)

namespace SharedSource

variable {Task : Type} {before after : SharedSource Task}

def initial : SharedSource Task := ⟨.initial, []⟩

/-- The tokens issued so far, first to last. -/
def history (moment : SharedSource Task) : List RequestToken :=
  moment.issued.map Prod.snd

/-- A task is issued a token. The source is read and advanced at once, so that no other task comes
between; which task is next is left open. -/
inductive Step : SharedSource Task → SharedSource Task → Prop where
  | issue (before : SharedSource Task) (task : Task) :
      Step before
        { tokens := before.tokens.issue.2
          issued := before.issued ++ [(task, before.tokens.issue.1)] }

/-- Any number of steps, in any order of the tasks. -/
def Reaches : SharedSource Task → SharedSource Task → Prop :=
  Relation.ReflTransGen Step

/-- The token issued at a position. -/
def tokenAt (position : Nat) : RequestToken :=
  ⟨.ofNat (position + 1)⟩

/-- Tokens are numbered in the order of issue, and the source remembers how many there are. -/
structure IsNumbered (moment : SharedSource Task) : Prop where
  latest_eq : moment.tokens.latest = .ofNat moment.issued.length
  history_eq : moment.history = (List.range moment.issued.length).map tokenAt

theorem isNumbered_initial : IsNumbered (initial : SharedSource Task) where
  latest_eq := rfl
  history_eq := rfl

theorem Step.isNumbered (step : Step before after) (numbered : IsNumbered before) :
    IsNumbered after := by
  obtain ⟨task⟩ := step
  have next : before.tokens.latest + 1 = .ofNat (before.issued.length + 1) := by
    rw [numbered.latest_eq, UInt64.ofNat_add]
    rfl
  constructor
  · rw [List.length_append]
    exact next
  · have issued : before.tokens.issue.1 = tokenAt before.issued.length :=
      congrArg RequestToken.mk next
    have earlier := numbered.history_eq
    rw [history] at earlier ⊢
    rw [List.map_append, earlier, List.map_singleton, issued, List.length_append,
      List.length_singleton, List.range_succ, List.map_append, List.map_singleton]

/-- The numbering holds without a bound on the run: beyond the last word, numbers wrap around on
both sides. -/
theorem Reaches.isNumbered (reached : Reaches before after) (numbered : IsNumbered before) :
    IsNumbered after := by
  induction reached with
  | refl => exact numbered
  | tail _ step ih => exact step.isNumbered ih

theorem Reaches.length_le (reached : Reaches before after) :
    before.issued.length ≤ after.issued.length := by
  induction reached with
  | refl => exact Nat.le_refl _
  | tail _ step ih =>
      obtain ⟨task⟩ := step
      rw [List.length_append]
      exact Nat.le_add_right_of_le ih

/-- Numbers that are words tell positions apart. -/
theorem ofNat_inj_of_lt {left right : Nat} (left_fits : left < 2 ^ 64)
    (right_fits : right < 2 ^ 64) :
    UInt64.ofNat left = UInt64.ofNat right ↔ left = right := by
  rw [← UInt64.toNat_inj, UInt64.toNat_ofNat_of_lt' left_fits, UInt64.toNat_ofNat_of_lt' right_fits]

namespace IsNumbered

variable {moment : SharedSource Task} (numbered : IsNumbered moment)
include numbered

theorem exists_position {token : RequestToken} (member : token ∈ moment.history) :
    ∃ position < moment.issued.length, token = tokenAt position := by
  rw [numbered.history_eq] at member
  obtain ⟨position, bound, rfl⟩ := List.mem_map.mp member
  exact ⟨position, List.mem_range.mp bound, rfl⟩

theorem nodup_history (few : moment.issued.length < 2 ^ 64) : moment.history.Nodup := by
  rw [numbered.history_eq]
  apply List.Nodup.map_on _ List.nodup_range
  intro left left_member right right_member same
  have left_bound := List.mem_range.mp left_member
  have right_bound := List.mem_range.mp right_member
  have numbers := congrArg RequestToken.number same
  exact Nat.succ.inj ((ofNat_inj_of_lt (by omega) (by omega)).mp numbers)

theorem isCurrent_tokenAt_iff {position : Nat} (issued : moment.issued.length < 2 ^ 64)
    (bound : position + 1 < 2 ^ 64) :
    moment.tokens.isCurrent (tokenAt position) = true ↔ moment.issued.length = position + 1 := by
  rw [RequestTokens.isCurrent, beq_iff_eq, numbered.latest_eq]
  exact ofNat_inj_of_lt issued bound

theorem getLast?_history_eq_iff {position : Nat} (issued : moment.issued.length < 2 ^ 64)
    (bound : position + 1 < 2 ^ 64) :
    moment.history.getLast? = some (tokenAt position) ↔ moment.issued.length = position + 1 := by
  rw [numbered.history_eq]
  cases count : moment.issued.length with
  | zero => simp
  | succ earlier =>
      rw [count] at issued
      rw [List.range_succ, List.map_append, List.map_singleton, List.getLast?_concat,
        Option.some.injEq, tokenAt, tokenAt, RequestToken.mk.injEq]
      exact ofNat_inj_of_lt issued bound

end IsNumbered

/-- Two moments of a run in which fewer tokens are issued than there are words. All tokens are
different; of all tokens of the run, exactly the one issued last is current; and a token that is no
longer current stays so. -/
theorem only_latest_current {earlier later : SharedSource Task} (reached : Reaches initial earlier)
    (continued : Reaches earlier later) (few : later.issued.length < 2 ^ 64) :
    later.history.Nodup ∧
      (∀ token ∈ later.history,
        earlier.tokens.isCurrent token = true ↔ earlier.history.getLast? = some token) ∧
      (∀ token ∈ earlier.history,
        earlier.tokens.isCurrent token = false → later.tokens.isCurrent token = false) := by
  have numbered := reached.isNumbered isNumbered_initial
  have numbered_later := continued.isNumbered numbered
  have grown := continued.length_le
  refine ⟨numbered_later.nodup_history few, ?_, ?_⟩
  · intro token member
    obtain ⟨position, bound, rfl⟩ := numbered_later.exists_position member
    rw [numbered.isCurrent_tokenAt_iff (by omega) (by omega),
      numbered.getLast?_history_eq_iff (by omega) (by omega)]
  · intro token member
    obtain ⟨position, bound, rfl⟩ := numbered.exists_position member
    rw [← Bool.not_eq_true, ← Bool.not_eq_true,
      numbered.isCurrent_tokenAt_iff (by omega) (by omega),
      numbered_later.isCurrent_tokenAt_iff few (by omega)]
    omega

/-- One task is issued a token, then another task, then the first task again. -/
theorem only_latest_current_two_tasks :
    ∃ earlier later : SharedSource Bool, Reaches initial earlier ∧ Reaches earlier later ∧
      later.history = [⟨1⟩, ⟨2⟩, ⟨3⟩] ∧ later.history.Nodup ∧
      earlier.tokens.isCurrent ⟨2⟩ = true ∧ later.tokens.isCurrent ⟨1⟩ = false := by
  let earlier : SharedSource Bool := ⟨⟨2⟩, [(true, ⟨1⟩), (false, ⟨2⟩)]⟩
  let later : SharedSource Bool := ⟨⟨3⟩, [(true, ⟨1⟩), (false, ⟨2⟩), (true, ⟨3⟩)]⟩
  have reached : Reaches initial earlier :=
    .tail (.single (.issue initial true)) (.issue ⟨⟨1⟩, [(true, ⟨1⟩)]⟩ false)
  have continued : Reaches earlier later := .single (.issue earlier true)
  have run := only_latest_current reached continued (by decide)
  refine ⟨earlier, later, reached, continued, rfl, run.1, ?_, ?_⟩
  · exact (run.2.1 ⟨2⟩ (by decide)).mpr rfl
  · exact run.2.2 ⟨1⟩ (by decide) rfl

end SharedSource

end EntitySearch
