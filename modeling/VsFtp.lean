import VsFtp.Confinement
import VsFtp.Directories
import VsFtp.Integrity
import VsFtp.Availability
import VsFtp.Ownership
import VsFtp.Descriptors
import VsFtp.Replies
import VsFtp.Requests
import VsFtp.Sessions
import VsFtp.Connections
import VsFtp.Lines
import VsFtp.Mapping
import VsFtp.Frames
import VsFtp.Readback
import VsFtp.Listening
import VsFtp.Listings
import VsFtp.Isolation
import VsFtp.Ports
import VsFtp.Recognition
import VsFtp.Resolution
import VsFtp.Accounting
import VsFtp.Streams
import VsFtp.Leftovers
import VsFtp.Shutdown
import VsFtp.Conversation
import VsFtp.Files
import VsFtp.Honesty
import VsFtp.Client
import VsFtp.Channels
import VsFtp.Contents
