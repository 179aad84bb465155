import GoProtocols.Go.Time

/-!
# Names of the protocol

The commands, capabilities and numeric replies that the server knows (`irc/irc/commands.go` and
`irc/irc/numeric.go`), as enumerations with their wire names.
-/

namespace Irc

open Go

/-! ## Commands -/

inductive Verb
  | PASS | NICK | USER | OPER | QUIT | JOIN | PART | MODE | TOPIC | NAMES | LIST | INVITE | KICK
  | PRIVMSG | NOTICE | TAGMSG | MOTD | LUSERS | VERSION | STATS | TIME | ADMIN | INFO | WHO | WHOIS
  | WHOWAS | KILL | PING | PONG | ERROR | AWAY | WALLOPS | USERHOST | ISON | MONITOR | CAP
  | AUTHENTICATE | BATCH | CHATHISTORY | FAIL | SETNAME | CHGHOST | ACCOUNT | ACK
  deriving DecidableEq

def Verb.name : Verb → Bytes
  | .PASS => lit "PASS"
  | .NICK => lit "NICK"
  | .USER => lit "USER"
  | .OPER => lit "OPER"
  | .QUIT => lit "QUIT"
  | .JOIN => lit "JOIN"
  | .PART => lit "PART"
  | .MODE => lit "MODE"
  | .TOPIC => lit "TOPIC"
  | .NAMES => lit "NAMES"
  | .LIST => lit "LIST"
  | .INVITE => lit "INVITE"
  | .KICK => lit "KICK"
  | .PRIVMSG => lit "PRIVMSG"
  | .NOTICE => lit "NOTICE"
  | .TAGMSG => lit "TAGMSG"
  | .MOTD => lit "MOTD"
  | .LUSERS => lit "LUSERS"
  | .VERSION => lit "VERSION"
  | .STATS => lit "STATS"
  | .TIME => lit "TIME"
  | .ADMIN => lit "ADMIN"
  | .INFO => lit "INFO"
  | .WHO => lit "WHO"
  | .WHOIS => lit "WHOIS"
  | .WHOWAS => lit "WHOWAS"
  | .KILL => lit "KILL"
  | .PING => lit "PING"
  | .PONG => lit "PONG"
  | .ERROR => lit "ERROR"
  | .AWAY => lit "AWAY"
  | .WALLOPS => lit "WALLOPS"
  | .USERHOST => lit "USERHOST"
  | .ISON => lit "ISON"
  | .MONITOR => lit "MONITOR"
  | .CAP => lit "CAP"
  | .AUTHENTICATE => lit "AUTHENTICATE"
  | .BATCH => lit "BATCH"
  | .CHATHISTORY => lit "CHATHISTORY"
  | .FAIL => lit "FAIL"
  | .SETNAME => lit "SETNAME"
  | .CHGHOST => lit "CHGHOST"
  | .ACCOUNT => lit "ACCOUNT"
  | .ACK => lit "ACK"

def verbs : List Verb :=
  [.PASS, .NICK, .USER, .OPER, .QUIT, .JOIN, .PART, .MODE, .TOPIC, .NAMES, .LIST, .INVITE, .KICK,
    .PRIVMSG, .NOTICE, .TAGMSG, .MOTD, .LUSERS, .VERSION, .STATS, .TIME, .ADMIN, .INFO, .WHO,
    .WHOIS, .WHOWAS, .KILL, .PING, .PONG, .ERROR, .AWAY, .WALLOPS, .USERHOST, .ISON, .MONITOR, .CAP,
    .AUTHENTICATE, .BATCH, .CHATHISTORY, .FAIL, .SETNAME, .CHGHOST, .ACCOUNT, .ACK]

/-- The command with this name. -/
def verbOf (name : Bytes) : Option Verb := verbs.find? fun v => v.name = name

/-! ## Capabilities -/

inductive Capability
  | sasl | serverTime | messageTags | batch | labeledResponse | echoMessage | multiPrefix
  | awayNotify | extendedJoin | chghost | setname | accountTag | capNotify | chatHistory
  | userHostInNames | inviteNotify | accountNotify | noImplicitNames | standardReplies
  | extendedMonitor | sts
  deriving DecidableEq

def Capability.name : Capability → Bytes
  | .sasl => lit "sasl"
  | .serverTime => lit "server-time"
  | .messageTags => lit "message-tags"
  | .batch => lit "batch"
  | .labeledResponse => lit "labeled-response"
  | .echoMessage => lit "echo-message"
  | .multiPrefix => lit "multi-prefix"
  | .awayNotify => lit "away-notify"
  | .extendedJoin => lit "extended-join"
  | .chghost => lit "chghost"
  | .setname => lit "setname"
  | .accountTag => lit "account-tag"
  | .capNotify => lit "cap-notify"
  | .chatHistory => lit "draft/chathistory"
  | .userHostInNames => lit "userhost-in-names"
  | .inviteNotify => lit "invite-notify"
  | .accountNotify => lit "account-notify"
  | .noImplicitNames => lit "no-implicit-names"
  | .standardReplies => lit "standard-replies"
  | .extendedMonitor => lit "extended-monitor"
  | .sts => lit "sts"

/-! ## Numerics -/

inductive Numeric
  | RPL_WELCOME | RPL_YOURHOST | RPL_CREATED | RPL_MYINFO | RPL_ISUPPORT | RPL_ENDOFSTATS
  | RPL_UMODEIS | RPL_STATSUPTIME | RPL_LUSERCLIENT | RPL_LUSERCHANNELS | RPL_LUSERME | RPL_ADMINME
  | RPL_ADMINLOC1 | RPL_ADMINLOC2 | RPL_ADMINEMAIL | RPL_AWAY | RPL_USERHOST | RPL_ISON | RPL_UNAWAY
  | RPL_NOWAWAY | RPL_WHOISUSER | RPL_WHOISSERVER | RPL_WHOISOPERATOR | RPL_WHOWASUSER
  | RPL_ENDOFWHO | RPL_WHOISIDLE | RPL_ENDOFWHOIS | RPL_WHOISCHANNELS | RPL_LISTSTART | RPL_LIST
  | RPL_LISTEND | RPL_CHANNELMODEIS | RPL_CREATIONTIME | RPL_WHOISACCOUNT | RPL_NOTOPIC | RPL_TOPIC
  | RPL_TOPICWHOTIME | RPL_INVITING | RPL_VERSION | RPL_WHOREPLY | RPL_NAMREPLY | RPL_ENDOFNAMES
  | RPL_BANLIST | RPL_ENDOFBANLIST | RPL_ENDOFWHOWAS | RPL_INFO | RPL_MOTD | RPL_ENDOFINFO
  | RPL_MOTDSTART | RPL_ENDOFMOTD | RPL_YOUROPER | RPL_TIME | ERR_NOSUCHNICK | ERR_NOSUCHCHANNEL
  | ERR_CANNOTSENDTOCHAN | ERR_WASNOSUCHNICK | ERR_INVALIDCAPCMD | ERR_NORECIPIENT
  | ERR_INPUTTOOLONG | ERR_UNKNOWNCOMMAND | ERR_NOMOTD | ERR_NONICKNAMEGIVEN | ERR_ERRONEUSNICKNAME
  | ERR_NICKNAMEINUSE | ERR_USERNOTINCHANNEL | ERR_NOTONCHANNEL | ERR_NOTREGISTERED
  | ERR_NEEDMOREPARAMS | ERR_ALREADYREGISTRED | ERR_PASSWDMISMATCH | ERR_CHANNELISFULL
  | ERR_INVITEONLYCHAN | ERR_BADCHANNELKEY | ERR_NOPRIVILEGES | ERR_CHANOPRIVSNEEDED
  | ERR_USERSDONTMATCH | RPL_MONONLINE | RPL_MONOFFLINE | RPL_MONLIST | RPL_ENDOFMONLIST
  | ERR_MONLISTFULL | RPL_LOGGEDIN | RPL_SASLSUCCESS | ERR_SASLFAIL | ERR_SASLTOOLONG
  | ERR_SASLABORTED | ERR_SASLALREADY | RPL_SASLMECHS
  deriving DecidableEq

def Numeric.code : Numeric → Nat
  | .RPL_WELCOME => 1
  | .RPL_YOURHOST => 2
  | .RPL_CREATED => 3
  | .RPL_MYINFO => 4
  | .RPL_ISUPPORT => 5
  | .RPL_ENDOFSTATS => 219
  | .RPL_UMODEIS => 221
  | .RPL_STATSUPTIME => 242
  | .RPL_LUSERCLIENT => 251
  | .RPL_LUSERCHANNELS => 254
  | .RPL_LUSERME => 255
  | .RPL_ADMINME => 256
  | .RPL_ADMINLOC1 => 257
  | .RPL_ADMINLOC2 => 258
  | .RPL_ADMINEMAIL => 259
  | .RPL_AWAY => 301
  | .RPL_USERHOST => 302
  | .RPL_ISON => 303
  | .RPL_UNAWAY => 305
  | .RPL_NOWAWAY => 306
  | .RPL_WHOISUSER => 311
  | .RPL_WHOISSERVER => 312
  | .RPL_WHOISOPERATOR => 313
  | .RPL_WHOWASUSER => 314
  | .RPL_ENDOFWHO => 315
  | .RPL_WHOISIDLE => 317
  | .RPL_ENDOFWHOIS => 318
  | .RPL_WHOISCHANNELS => 319
  | .RPL_LISTSTART => 321
  | .RPL_LIST => 322
  | .RPL_LISTEND => 323
  | .RPL_CHANNELMODEIS => 324
  | .RPL_CREATIONTIME => 329
  | .RPL_WHOISACCOUNT => 330
  | .RPL_NOTOPIC => 331
  | .RPL_TOPIC => 332
  | .RPL_TOPICWHOTIME => 333
  | .RPL_INVITING => 341
  | .RPL_VERSION => 351
  | .RPL_WHOREPLY => 352
  | .RPL_NAMREPLY => 353
  | .RPL_ENDOFNAMES => 366
  | .RPL_BANLIST => 367
  | .RPL_ENDOFBANLIST => 368
  | .RPL_ENDOFWHOWAS => 369
  | .RPL_INFO => 371
  | .RPL_MOTD => 372
  | .RPL_ENDOFINFO => 374
  | .RPL_MOTDSTART => 375
  | .RPL_ENDOFMOTD => 376
  | .RPL_YOUROPER => 381
  | .RPL_TIME => 391
  | .ERR_NOSUCHNICK => 401
  | .ERR_NOSUCHCHANNEL => 403
  | .ERR_CANNOTSENDTOCHAN => 404
  | .ERR_WASNOSUCHNICK => 406
  | .ERR_INVALIDCAPCMD => 410
  | .ERR_NORECIPIENT => 411
  | .ERR_INPUTTOOLONG => 417
  | .ERR_UNKNOWNCOMMAND => 421
  | .ERR_NOMOTD => 422
  | .ERR_NONICKNAMEGIVEN => 431
  | .ERR_ERRONEUSNICKNAME => 432
  | .ERR_NICKNAMEINUSE => 433
  | .ERR_USERNOTINCHANNEL => 441
  | .ERR_NOTONCHANNEL => 442
  | .ERR_NOTREGISTERED => 451
  | .ERR_NEEDMOREPARAMS => 461
  | .ERR_ALREADYREGISTRED => 462
  | .ERR_PASSWDMISMATCH => 464
  | .ERR_CHANNELISFULL => 471
  | .ERR_INVITEONLYCHAN => 473
  | .ERR_BADCHANNELKEY => 475
  | .ERR_NOPRIVILEGES => 481
  | .ERR_CHANOPRIVSNEEDED => 482
  | .ERR_USERSDONTMATCH => 502
  | .RPL_MONONLINE => 730
  | .RPL_MONOFFLINE => 731
  | .RPL_MONLIST => 732
  | .RPL_ENDOFMONLIST => 733
  | .ERR_MONLISTFULL => 734
  | .RPL_LOGGEDIN => 900
  | .RPL_SASLSUCCESS => 903
  | .ERR_SASLFAIL => 904
  | .ERR_SASLTOOLONG => 905
  | .ERR_SASLABORTED => 906
  | .ERR_SASLALREADY => 907
  | .RPL_SASLMECHS => 908

/-- `Numeric.String`: three digits. -/
def Numeric.string (n : Numeric) : Bytes := zeroPad 3 n.code

theorem Numeric.string_ne_welcome {n : Numeric} (h : n ≠ .RPL_WELCOME) :
    n.string ≠ Numeric.RPL_WELCOME.string := by
  revert h
  cases n <;> decide

theorem Verb.name_ne_welcome (v : Verb) : v.name ≠ Numeric.RPL_WELCOME.string := by
  cases v <;> decide

end Irc
