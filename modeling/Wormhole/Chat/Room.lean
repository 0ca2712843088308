import Wormhole.Chat.Server

/-!
# `Chat.Room` — a chat room

What the server is for. A room is a log of who came and who said what. Who comes gets the next name, and takes the
place of whoever was there for his portal; everybody sees what is announced while he is there (`Room.view`).
-/

namespace Wormhole
namespace Chat

open Portal (ActorId)

/-- What happens in a room. -/
inductive Event where
  | joined (portal client : ActorId)
  | said (portal : ActorId) (message : ChatMessage)
  deriving DecidableEq, Repr

-- The log of a room has its latest event first.
namespace Room

/-- How often somebody has joined. -/
def joins : List Event → Nat
  | [] => 0
  | .joined _ _ :: past => joins past + 1
  | .said _ _ :: past => joins past

variable (names : Nat → UserAlias)

/-- Who is there for a portal: the one who joined last. -/
def member : List Event → ActorId → Option (ActorId × UserAlias)
  | [], _ => none
  | .joined portal client :: past, p => if p = portal then some (client, names (joins past)) else member past p
  | .said _ _ :: past, p => member past p

/-- What is announced. -/
def announcement (past : List Event) : Event → Option ChatClientMessage
  | .joined _ _ => some (.userConnected (names (joins past)))
  | .said portal message => (member names past portal).map fun m => .messageReceived m.2 message

def Present (log : List Event) (client : ActorId) : Prop :=
  ∃ portal userAlias, member names log portal = some (client, userAlias)

open Classical in
/-- What somebody sees: what is announced while he is there. -/
noncomputable def view : List Event → ActorId → List ChatClientMessage
  | [], _ => []
  | e :: past, client =>
    view past client ++ if Present names (e :: past) client then (announcement names past e).toList else []

/-- A client has joined for a portal under an alias. -/
def Joined (log : List Event) (portal client : ActorId) (userAlias : UserAlias) : Prop :=
  ∃ later past, log = later ++ .joined portal client :: past ∧ userAlias = names (joins past)

variable {names} {log : List Event} {portal client : ActorId} {userAlias : UserAlias}

theorem Joined.later (h : Joined names log portal client userAlias) (e : Event) :
    Joined names (e :: log) portal client userAlias := by
  obtain ⟨later, past, rfl, rfl⟩ := h
  exact ⟨e :: later, past, rfl, rfl⟩

/-- Whoever has joined, there is somebody for his portal from then on. -/
theorem Joined.member (h : Joined names log portal client userAlias) : ∃ m, member names log portal = some m := by
  obtain ⟨later, past, rfl, -⟩ := h
  induction later with
  | nil => exact ⟨_, if_pos rfl⟩
  | cons e later ih =>
    obtain ⟨m, hm⟩ := ih
    cases e with
    | joined portal' client' =>
      by_cases hportal : portal = portal'
      · exact ⟨_, if_pos hportal⟩
      · exact ⟨m, (if_neg hportal).trans hm⟩
    | said portal' message => exact ⟨m, hm⟩

theorem joins_append (xs ys : List Event) : joins (xs ++ ys) = joins xs + joins ys := by
  induction xs with
  | nil => exact (Nat.zero_add _).symm
  | cons e xs ih =>
    cases e <;> simp only [List.cons_append, joins, ih]
    omega

/-- Whoever has joined has seen that he has. -/
theorem Joined.mem_view (h : Joined names log portal client userAlias) : .userConnected userAlias ∈ view names log client := by
  obtain ⟨later, past, rfl, rfl⟩ := h
  induction later with
  | nil =>
    have hpresent : Present names (.joined portal client :: past) client := ⟨portal, _, if_pos rfl⟩
    rw [List.nil_append, view, if_pos hpresent]
    exact List.mem_append_right _ List.mem_cons_self
  | cons e later ih => exact List.mem_append_left _ ih

/-- Those who have joined as the same are the same. -/
theorem client_unique {later later' past past' : List Event} {portal portal' client client' : ActorId}
    (h : later ++ .joined portal client :: past = later' ++ .joined portal' client' :: past')
    (hjoins : joins past = joins past') : client = client' := by
  -- an earlier one would have fewer before him
  have hless {xs ys mid : List Event} {p p' c c' : ActorId} (h : .joined p c :: xs = mid ++ .joined p' c' :: ys)
      (hjoins : joins xs = joins ys) : c = c' := by
    cases mid with
    | nil =>
      cases h
      rfl
    | cons e mid =>
      obtain ⟨-, rfl⟩ := List.cons.inj h
      rw [List.append_eq, joins_append, joins] at hjoins
      omega
  obtain ⟨mid, -, hmid⟩ | ⟨mid, -, hmid⟩ := List.append_eq_append_iff.mp h
  · exact hless hmid hjoins
  · exact (hless hmid hjoins.symm).symm

/-- As long as the names do not repeat themselves, nobody has the alias of another. -/
theorem Joined.unique {portal' client' : ActorId} (h : Joined names log portal client userAlias)
    (h' : Joined names log portal' client' userAlias)
    (hnames : ∀ i j, i < joins log → j < joins log → names i = names j → i = j) : client = client' := by
  obtain ⟨later, past, rfl, rfl⟩ := h
  obtain ⟨later', past', hlog, halias⟩ := h'
  refine client_unique hlog (hnames _ _ ?_ ?_ halias)
  · rw [joins_append, joins]
    omega
  · rw [hlog, joins_append, joins]
    omega

end Room

end Chat
end Wormhole
