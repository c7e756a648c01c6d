import LiteServer.Net.EpollMoves

/-!
Which descriptor an ID stands for: that of the latest callback that opened it.
Every move keeps this for the sessions in the table and for the connectors that
are still going to be read.
-/
namespace LiteServer.Net

namespace NetService
variable {s s' : NetService} {linked linked' : Nat → Prop}

/-- A session in the table, or one that data can still arrive for, has the
    descriptor that its ID was last opened on. -/
structure Identified (linked : Nat → Prop) (s : NetService) : Prop where
  regular : s.Regular
  heap : ∀ n session, s.objects (.heap n) = some session → s.latest session.sessionID = some session.socket
  connectors : ∀ c session, (linked c ∨ ∃ id, s.sessions id = some (.connector c)) →
    s.objects (.connector c) = some session →
    ¬ s.Circulating session.sessionID ∧ s.latest session.sessionID = some session.socket

theorem Identified.relink (identified : s.Identified linked)
    (fewer : ∀ c, linked' c → linked c ∨ ∃ id, s.sessions id = some (.connector c)) : s.Identified linked' where
  regular := identified.regular
  heap := identified.heap
  connectors c session refers :=
    identified.connectors c session (refers.elim (fewer c) .inr)

/-- An object from `new` was there before the move, or was opened by it. -/
theorem Move.heap (moved : Move linked s s') {n : Nat} {session : Session} (found : s'.objects (.heap n) = some session) :
    s.objects (.heap n) = some session ∨ s'.latest session.sessionID = some session.socket := by
  cases moved with
  | stay same _ => exact .inl (same.objects ▸ found)
  | construct _ _ _ _ _ _ same _ => exact .inl (by rwa [same.objects, setObject_heap] at found)
  | turn _ _ _ same _ => exact .inl (same.objects ▸ found)
  | attempt _ _ _ _ _ _ same _ => exact .inl (same.objects ▸ found)
  | abandon _ same _ => exact .inl (same.objects ▸ found)
  | join _ _ _ _ same _ => exact .inl (same.objects ▸ found)
  | enter rest session₁ _ _ _ _ same trace =>
    rw [same.objects] at found
    rcases update_eq_some found with ⟨_, new⟩ | before
    · cases new
      obtain ⟨t, _, trace⟩ := trace
      refine .inr ?_
      rw [NetService.latest, trace]
      exact Latest.latest_given (by simp [identity, Event.opensOn])
    · exact .inl before
  | touch _ _ _ _ _ _ _ same _ => exact .inl (by rwa [same.objects, setObject_heap] at found)
  | detach _ _ _ _ same _ => exact .inl (by rwa [same.objects, detached_heap] at found)
  | remove _ _ _ same _ =>
    rw [same.objects] at found
    exact .inl (update_none_eq_some found).1

/-- A connector that is linked or in the table after a move was so before with
    the same session, or joined the table by it. -/
theorem Identified.connector (identified : s.Identified linked) (moved : Move linked s s') {c : Nat} {session' : Session}
    (refers : linked c ∨ ∃ id, s'.sessions id = some (.connector c))
    (found : s'.objects (.connector c) = some session') :
    (∃ session, s.objects (.connector c) = some session ∧ session'.sessionID = session.sessionID ∧
      session'.socket = session.socket ∧ (linked c ∨ ∃ id, s.sessions id = some (.connector c))) ∨
    (¬ s'.Circulating session'.sessionID ∧ s'.latest session'.sessionID = some session'.socket) := by
  cases moved with
  | stay same _ => exact .inl ⟨session', same.objects ▸ found, rfl, rfl, same.sessions ▸ refers⟩
  | construct d session₁ _ unstored unlinked _ same _ =>
    rw [same.objects] at found
    have differ : SessionPtr.connector c ≠ .connector d := by
      rintro ⟨⟩
      rcases refers with link | ⟨id, stored⟩
      · exact unlinked link
      · exact unstored id (same.sessions ▸ stored)
    exact .inl ⟨session', (Function.update_of_ne differ _ _).symm.trans found, rfl, rfl, same.sessions ▸ refers⟩
  | turn _ _ _ same _ => exact .inl ⟨session', same.objects ▸ found, rfl, rfl, same.sessions ▸ refers⟩
  | attempt _ _ _ _ _ _ same _ => exact .inl ⟨session', same.objects ▸ found, rfl, rfl, same.sessions ▸ refers⟩
  | abandon _ same _ => exact .inl ⟨session', same.objects ▸ found, rfl, rfl, same.sessions ▸ refers⟩
  | join d session₁ found₁ trying same trace =>
    have before : s.objects (.connector c) = some session' := same.objects ▸ found
    by_cases mine : c = d
    · subst mine
      cases found₁.symm.trans before
      refine .inr ⟨fun circulating => identified.regular.joined before trying (same.circulating circulating), ?_⟩
      rw [NetService.latest, trace]
      exact Latest.latest_given (by simp [identity, Event.opensOn])
    · refine .inl ⟨session', before, rfl, rfl, refers.imp_right ?_⟩
      rintro ⟨id, stored⟩
      rw [same.sessions] at stored
      rcases update_eq_some stored with ⟨_, new⟩ | stored
      · cases new
        exact absurd rfl mine
      · exact ⟨id, stored⟩
  | enter rest session₁ _ _ _ _ same _ =>
    rw [same.objects, entered_connector] at found
    refine .inl ⟨session', found, rfl, rfl, refers.imp_right ?_⟩
    rintro ⟨id, stored⟩
    rw [same.sessions] at stored
    rcases update_eq_some stored with ⟨_, new⟩ | stored
    · cases new
    · exact ⟨id, stored⟩
  | touch d session₁ session₂ found₁ own _ socket same _ =>
    have refers' : linked c ∨ ∃ id, s.sessions id = some (.connector c) := same.sessions ▸ refers
    rw [same.objects] at found
    rcases update_eq_some found with ⟨mine, new⟩ | before
    · cases mine
      cases new
      exact .inl ⟨session₁, found₁, own, socket, refers'⟩
    · exact .inl ⟨session', before, rfl, rfl, refers'⟩
  | detach d session₁ found₁ _ same _ =>
    have refers' : linked c ∨ ∃ id, s.sessions id = some (.connector c) := by
      refine refers.imp_right ?_
      rintro ⟨id, stored⟩
      rw [same.sessions] at stored
      exact ⟨id, (update_none_eq_some stored).1⟩
    rw [same.objects] at found
    rcases update_eq_some found with ⟨mine, new⟩ | before
    · cases mine
      cases new
      exact .inl ⟨session₁, found₁, rfl, rfl, refers'⟩
    · exact .inl ⟨session', before, rfl, rfl, refers'⟩
  | remove n session₁ _ same _ =>
    rw [same.objects, removed_connector] at found
    refine .inl ⟨session', found, rfl, rfl, refers.imp_right ?_⟩
    rintro ⟨id, stored⟩
    rw [same.sessions] at stored
    exact ⟨id, (update_none_eq_some stored).1⟩

theorem Identified.move (identified : s.Identified linked) (moved : Move linked s s') : s'.Identified linked where
  regular := identified.regular.move moved
  heap n session found := by
    rcases moved.heap found with before | opened
    · obtain ⟨free, alone⟩ := identified.regular.sound.stored_alone (identified.regular.heap before).1
      rw [moved.latest free alone]
      exact identified.heap n session before
    · exact opened
  connectors c session' refers found := by
    rcases identified.connector moved refers found with ⟨session, before, own, socket, refers⟩ | joined
    · obtain ⟨settled, latest⟩ := identified.connectors c session refers before
      rw [own, socket]
      refine ⟨fun circulating => settled (identified.regular.circulating moved circulating), ?_⟩
      rw [moved.latest (fun free => settled (.inl free)) fun d trying own => settled (.inr (.inl ⟨d, trying, own⟩))]
      exact latest
    · exact joined

theorem Identified.moves (identified : s.Identified linked) (moves : Moves linked s s') : s'.Identified linked :=
  moves.invariant (fun _ _ => Identified.move) identified

theorem initSession_identified : initSession.Identified linked where
  regular := initSession_regular
  heap := by simp [initSession]
  connectors := by simp [initSession]

end NetService

end LiteServer.Net
