import GoProtocols.Ftp.Proof.Acts
import GoProtocols.Ftp.Proof.Paths

/-!
# The sandbox of an FTP session

`Confined`: the working directory is canonical, as is the path of a pending rename, and so was every
path the session has handed to the filesystem. Every line keeps it (`serveLine_confined`), for any
filesystem that resolves canonical paths to canonical paths, since commands use no other paths than
the session knows; so it holds in every state of a session (`handleConn_confined`). With the
OS-backed filesystem every host path of a session is then in or below the directory of its user
(`session_confined`).
-/

namespace Ftp

open Go Filepath

variable {W : Type}

/-- Resolving relative to a canonical path gives a canonical path. -/
def Filesystem.KeepsCanonical (fs : Filesystem W) : Prop :=
  ∀ u cwd arg w target, IsCanonical cwd → (fs.resolve u cwd arg w).1 = .ok target →
    IsCanonical target

theorem OS.keepsCanonical (o : OS) (host : Host W) : (o.filesystem host).KeepsCanonical :=
  fun _ _ _ _ _ hcwd h => resolve_canonical hcwd h

structure Confined (st : State W) : Prop where
  cwd : IsCanonical st.session.cwd
  renameTo : st.session.renameTo = [] ∨ IsCanonical st.session.renameTo
  calls : ∀ c ∈ st.calls, ∀ p ∈ c.paths, IsCanonical p

section
variable {cfg : Config W} {st : State W} {st' : State W}

theorem Confined.knows (hfs : cfg.filesystem.KeepsCanonical) (h : Confined st) {path : Bytes}
    (hpath : st.Knows cfg path) : IsCanonical path := by
  rcases hpath with rfl | ⟨hne, rfl⟩ | ⟨arg, w, hok⟩
  · exact h.cwd
  · exact h.renameTo.resolve_left hne
  · exact hfs _ _ arg w path h.cwd hok

theorem Confined.acts (hfs : cfg.filesystem.KeepsCanonical) (h : Confined st)
    (hacts : Acts cfg st st') : Confined st' where
  cwd := h.knows hfs hacts.cwd
  renameTo := hacts.renameTo.imp_right (h.knows hfs)
  calls := by
    obtain ⟨made, hmade, hall⟩ := hacts.calls
    rw [hmade]
    intro c hc p hp
    rcases List.mem_append.1 hc with hc | hc
    · exact h.calls c hc p hp
    · exact h.knows hfs ((hall c hc).2.2 p hp)

theorem Confined.of_eq (h : Confined st) (hcalls : st'.calls = st.calls)
    (hcwd : st'.session.cwd = st.session.cwd ∨ st'.session.cwd = lit "/")
    (hrename : st'.session.renameTo = st.session.renameTo) : Confined st' where
  cwd := hcwd.elim (fun he => he ▸ h.cwd) fun he => he ▸ isCanonical_root
  renameTo := hrename ▸ h.renameTo
  calls := hcalls ▸ h.calls

/-! ## Whole sessions -/

theorem serveLine_confined [UnicodeTables] (hfs : cfg.filesystem.KeepsCanonical) (h : Confined st)
    (line : Bytes) : Confined (serveLine cfg st line).1 := by
  by_cases huser : ∃ name, commandOf line = some (.USER, name)
  · obtain ⟨name, hname⟩ := huser
    rw [serveLine_USER cfg hname]
    exact h.of_eq (by simp [handleUSER]) (.inl (by simp [handleUSER])) (by simp [handleUSER])
  by_cases hpass : ∃ pass, commandOf line = some (.PASS, pass)
  · obtain ⟨pass, hpass⟩ := hpass
    obtain ⟨hcalls, hsession⟩ := handlePASS_cases cfg st pass
    rw [serveLine_PASS cfg hpass]
    rcases hsession with hsame | ⟨u, -, -, hnew⟩
    · exact h.of_eq (by simp [hcalls]) (.inl (by simp [hsame])) (by simp [hsame])
    · exact h.of_eq (by simp [hcalls]) (.inr (by simp [hnew])) (by simp [hnew])
  · exact h.acts hfs (serveLine_acts (fun name hn => huser ⟨name, hn⟩) fun pass hp => hpass ⟨pass, hp⟩)

theorem handleConn_confined [UnicodeTables] (hfs : cfg.filesystem.KeepsCanonical) (world : W)
    (lines : List Bytes) : Confined (handleConn cfg world lines) := by
  rw [← handleConn_eq]
  induction lines using List.reverseRecOn with
  | nil =>
    have hnew : Confined ({ world } : State W) := ⟨isCanonical_root, .inl rfl, by simp⟩
    exact hnew.of_eq (accepted_calls cfg world) (.inl (by rw [System.after_nil, conversation,
      accepted_session])) (by rw [System.after_nil, conversation, accepted_session])
  | append_singleton lines line ih =>
    rw [System.after_concat]
    simp only [conversation, Control.step]
    split
    · exact serveLine_confined hfs ih line
    · exact ih

end

/-- **An FTP session cannot leave its user's directory**: after any commands the working directory
is canonical, and every host path of a filesystem call made so far is the user's directory or lies
below it. -/
theorem session_confined [UnicodeTables] (cfg : Config W) (host : Host W)
    (getwd : Except Bytes Bytes) {root : Bytes} (hroot : isAbs root = true) (world : W)
    (lines : List Bytes) :
    let o := newOS getwd root
    let st := handleConn { cfg with filesystem := o.filesystem host } world lines
    IsCanonical st.session.cwd ∧
      ∀ c ∈ st.calls, ∀ p ∈ c.paths, Under (o.homeDir c.user) (o.full c.user p) := by
  intro o st
  have h : Confined st := handleConn_confined (o.keepsCanonical host) world lines
  exact ⟨h.cwd, fun c hc p hp => full_under (newOS_root getwd hroot) c.user (h.calls c hc p hp)⟩

/-- A host on which every path is a directory and every operation succeeds. -/
def openHost : Host Unit where
  stat _ w := (.ok { isDir := true }, w)
  readdir _ w := (.ok [], w)
  mkdirAll _ w := (.ok (), w)
  removeAll _ w := (.ok (), w)
  rename _ _ w := (.ok (), w)
  openRead _ w := (.ok (), w)
  create _ w := (.ok (), w)
  openAppend _ w := (.ok (), w)
  copyOut _ _ w := (([], .ok ()), w)
  copyIn _ _ w := (.ok (), w)

/-- A server that lets everybody in, with no data connections. -/
def openConfig : Config Unit where
  banner := lit "Welcome"
  welcomeMessage := []
  passivePortStart := 0
  passivePortEnd := 0
  authenticate user _ w := (.ok { name := user, home := lit "home" }, w)
  filesystem := (newOS (.error []) (lit "/srv")).filesystem openHost
  net :=
    { listen := fun _ w => (.error [], w), accept := fun _ w => (.error [], w)
      dial := fun _ w => (.error [], w), write := fun _ w => (.ok (), w) }

theorem session_confined_climbing :
    let o := newOS (.error []) (lit "/srv")
    let st := @handleConn Unit { openConfig with filesystem := o.filesystem openHost }
      asciiTables ()
      [lit "USER u\r\n", lit "PASS p\r\n", lit "CWD a/../../../b\r\n", lit "DELE ../../c\r\n"]
    IsCanonical st.session.cwd ∧
      ∀ c ∈ st.calls, ∀ p ∈ c.paths, Under (o.homeDir c.user) (o.full c.user p) :=
  @session_confined Unit asciiTables openConfig openHost (.error []) (lit "/srv") (by decide) () _

end Ftp
