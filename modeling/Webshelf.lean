import Webshelf.Users.Balance
import Webshelf.Codes.SingleUse
import Webshelf.Codes.Guesses
import Webshelf.Codes.Addresses
import Webshelf.Codes.Cooldown
import Webshelf.Sessions.Rotation
import Webshelf.Sessions.Logins
import Webshelf.Users.Roles
import Webshelf.Users.TokenVersion
import Webshelf.Users.Listing
import Webshelf.Users.Pages
import Webshelf.Adapters.Cors
import Webshelf.I18n.FastPath
import Webshelf.Users.FreshReads
import Webshelf.Users.Hidden
import Webshelf.Users.Atomicity
import Webshelf.Sessions.VersionCache
import Webshelf.Sessions.Exchange
import Webshelf.Sessions.SingleToken
import Webshelf.Sessions.Provenance
import Webshelf.Client.AdjustBalance
import Webshelf.Client.Logout
import Webshelf.Client.Refresh
import Webshelf.Handlers.Enumeration
import Webshelf.Handlers.AnyCase
import Webshelf.Snowflake.Unique
import Webshelf.Snowflake.Fields
import Webshelf.Snowflake.Exclusive
import Webshelf.Snowflake.SingleThread
import Webshelf.Wechat.OneShot
import Webshelf.Wechat.Attempts
import Webshelf.Wechat.Index
import Webshelf.Wechat.AllOrNothing
import Webshelf.Wechat.SafeMode
import Webshelf.Wechat.WrongCodes
import Webshelf.Wechat.Resend
import Webshelf.Wechat.Refinement
import Webshelf.Wechat.RoundTrip
import Webshelf.Cache.Exclusion
import Webshelf.Cache.Completion
import Webshelf.Adapters.EmailLimit
import Webshelf.Routing.Writes
import Webshelf.Routing.SecondChance
import Webshelf.Routing.Breaker
import Webshelf.Routing.Templates
import Webshelf.Wechat.Bindings
import Webshelf.Mail.Greeting
import Webshelf.Routing.Weighted
import Webshelf.RateLimit.Window
import Webshelf.Wechat.Reply
import Webshelf.Wechat.Trigger
import Webshelf.Server.Integrity
import Webshelf.Server.Authority
import Webshelf.Sessions.Credentials
import Webshelf.Server.Progress
import Webshelf.Server.Recovery
import Webshelf.Wechat.Answers
import Webshelf.RateLimit.Admission
