import GoProtocols.Irc.Proof.Agree
import GoProtocols.Irc.Proof.Reach

/-!
# Nicks and the registry, over whole runs

`NicksAgree`: the registered sessions are those that the registry has under their nicks. It holds in
every state of a run exactly if no registered session takes another nick in it and no session leaves
while it waits with a registered nick (`KeepsNicks`). Both can happen: `dispatch` hands every `NICK`
to `handleNick`, which leaves the registry alone, and `removeSession` deletes the entry of the nick
without a look at whose it is.
-/

namespace Irc

open Go System

section
variable [UnicodeTables] {st : State} {e : Event}

structure NicksAgree (srv : Server) : Prop where
  registered_iff : ∀ s, (srv.session s).connected = true →
    ((srv.session s).state = .registered ↔ srv.getSession (srv.session s).nick = some s)
  entry : ∀ key s, srv.sessions.lookup key = some s → key = toLower (srv.session s).nick
  /-- No two registered sessions share a nick. -/
  unique : ∀ s t, (srv.session s).connected = true → (srv.session t).connected = true →
    (srv.session s).state = .registered → (srv.session t).state = .registered →
    toLower (srv.session s).nick = toLower (srv.session t).nick → s = t

theorem nicksAgree_iff {srv : Server} : NicksAgree srv ↔ srv.users.Agree :=
  ⟨fun h => ⟨h.registered_iff, h.entry⟩, fun h =>
    ⟨h.registered_iff, h.entry, fun _ _ hs ht hsr htr heq => h.unique hs ht hsr htr heq⟩⟩

/-- The event does not give a registered session another nick, and is not the disconnect of a
session that waits with a nick that is registered. -/
def KeepsNicks (st : State) : Event → Prop
  | .connect _ _ _ => True
  | .line s raw => ∀ msg ∈ lineMessage raw, ¬ st.srv.users.Renames s msg
  | .disconnect s => ¬ st.srv.users.Contested s

instance (st : State) : (e : Event) → Decidable (KeepsNicks st e)
  | .connect _ _ _ => inferInstanceAs (Decidable True)
  | .line _ _ => inferInstanceAs (Decidable (∀ _ ∈ _, _))
  | .disconnect _ => inferInstanceAs (Decidable (¬ _))

theorem settled_step (h : st.srv.users.Settled) (hen : e.enabled st) (hgood : KeepsNicks st e)
    (env : Env) : ((ircd env).step st e).srv.users.Settled := by
  have hstep := users_step hen env
  generalize ((ircd env).step st e).srv.users = us' at hstep ⊢
  cases hstep with
  | refuse | ignore => exact h
  | connect => exact h.connect
  | command hc hmsg => exact h.moves (Users.moves_command _ _ _) hc (hgood _ hmsg)
  | quit hc => exact h.quit hc hgood

theorem keepsNicks_of_agree (h : st.srv.users.Settled) (hen : e.enabled st) (env : Env)
    (hagree : ((ircd env).step st e).srv.users.Agree) : KeepsNicks st e := by
  have hstep := users_step hen env
  generalize ((ircd env).step st e).srv.users = us' at hstep hagree
  cases hstep with
  | refuse | connect => trivial
  | ignore hmsg => exact fun msg hmsg' => absurd (hmsg.symm.trans hmsg') (by simp)
  | @command s raw msg hc hmsg =>
    intro msg' hmsg' hren
    obtain rfl : msg = msg' := Option.some.inj (hmsg.symm.trans hmsg')
    exact h.not_agree_of_renames hc hren hagree
  | quit => exact fun hc => h.not_agree_of_contested hc hagree

theorem settled_init : Users.Settled ({} : State).srv.users where
  toSound := Base.init.sound
  registered_iff _ h := by cases h
  entry _ _ h := by cases h
  connected _ _ h := by cases h

/-- **Nicks and the registry agree throughout exactly the runs in which every event keeps them.** -/
theorem nicksAgree_throughout_iff (env : Env) {es : List Event} (hv : (ircd env).Valid es) :
    (ircd env).Throughout (fun _ st => NicksAgree st.srv) es ↔
      (ircd env).Each (fun _ st e => KeepsNicks st e) es := by
  refine (ircd env).throughout_iff (I := fun _ st => st.srv.users.Settled) settled_init ?_ ?_ ?_ hv
  · exact fun _ st h => nicksAgree_iff.2 h.toAgree
  · exact fun _ e h hen hgood => settled_step h hen hgood env
  · exact fun _ e h hen hP => keepsNicks_of_agree h hen env (nicksAgree_iff.1 hP)

end

section
attribute [local instance] asciiTables

theorem nicksAgree_throughout_iff_registration :
    (ircd (Config.still {})).Throughout (fun _ st => NicksAgree st.srv)
      (registration 0 (lit "alice")) :=
  (nicksAgree_throughout_iff _ (by decide +kernel)).2 (by decide +kernel)

def renamed : List Event := registration 0 (lit "alice") ++ [.line 0 (lit "NICK bob")]

/-- The client is registered, but not found under its nick. -/
theorem not_nicksAgree_renamed :
    (ircd (Config.still {})).Valid renamed ∧
      ¬ NicksAgree ((ircd (Config.still {})).after renamed).srv := by
  refine ⟨by decide +kernel, fun h => ?_⟩
  have hfound := (h.registered_iff 0 (by decide +kernel)).1 (by decide +kernel)
  revert hfound
  decide +kernel

end

end Irc
