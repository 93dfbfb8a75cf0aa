import SecureLog.Bytes
import SecureLog.Primitives
import SecureLog.Store
import SecureLog.Chain
import SecureLog.Logger
import SecureLog.Noninterference
import SecureLog.Agreement
import SecureLog.Protocol
import SecureLog.Completeness
import SecureLog.Binding
import SecureLog.Verifier
import SecureLog.Detection
import SecureLog.Snapshot
import SecureLog.Remote
import SecureLog.FileFormat
import SecureLog.ProtoConvert
import SecureLog.Server
import SecureLog.Folder
import SecureLog.FileStore
import SecureLog.Readers
import SecureLog.SqliteStore
import SecureLog.Backings
import SecureLog.FileFaults
import SecureLog.ConstantTime
import SecureLog.Isolation
import SecureLog.Handlers
import SecureLog.Writers
import SecureLog.Release
import SecureLog.Deployments
import SecureLog.Sessions
import SecureLog.Forgery
