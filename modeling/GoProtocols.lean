import GoProtocols.Torrent.Proof.Safety
import GoProtocols.Torrent.Proof.InfoHash
import GoProtocols.Sftp.Proof.Sandbox
import GoProtocols.Irc.Nicks
import GoProtocols.Irc.Disconnect
import GoProtocols.Irc.Membership
import GoProtocols.Irc.Password
import GoProtocols.Irc.RoundTrip
import GoProtocols.Irc.Identity
import GoProtocols.Irc.Framing
import GoProtocols.Irc.Injection
import GoProtocols.Irc.Echo
import GoProtocols.Sftp.Writes
import GoProtocols.Sftp.Replies
import GoProtocols.Sftp.Answers
import GoProtocols.Sftp.Isolation
import GoProtocols.Sftp.Release
import GoProtocols.Sftp.Listing
import GoProtocols.Sftp.Access
import GoProtocols.Ftp.Relogin
import GoProtocols.Irc.Writer
import GoProtocols.Irc.Client.Scram
import GoProtocols.Irc.Capabilities
import GoProtocols.Irc.HistoryIds
import GoProtocols.Irc.Paging
import GoProtocols.Irc.Timestamps
import GoProtocols.Irc.Admission
import GoProtocols.Irc.Registration
import GoProtocols.Irc.Bouncer.History
import GoProtocols.Irc.Bouncer.Attach
import GoProtocols.Irc.HistoryOrder
import GoProtocols.Irc.Orphans
import GoProtocols.Irc.Attribution
import GoProtocols.Irc.UserModes
import GoProtocols.Irc.Glob
import GoProtocols.Irc.Isupport
import GoProtocols.Irc.ModeString
import GoProtocols.Irc.Client.Nick
import GoProtocols.Irc.ListReply
import GoProtocols.Torrent.Piece
import GoProtocols.Torrent.Peer
import GoProtocols.Ftp.Stream
import GoProtocols.Ftp.Addresses
import GoProtocols.Ftp.Resources
import GoProtocols.Irc.Client.Dcc
